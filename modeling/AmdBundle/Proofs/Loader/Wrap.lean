import AmdBundle.Loader.Wrap
import AmdBundle.Proofs.Text.Indent

/-!
# The parts of a wrapped bundle

`wrap_eq` : a bundle is its parts between line feeds: the top of the loader, the modules of the
imports, the parts of the code and the marker, each of them indented, and the rest of the loader.
-/

set_option autoImplicit false

namespace AmdBundle.Loader

/-- How far everything inside the loader stands to the right. -/
def margin : Text :=
  Text.spaces 4

/-- What stands before the modules. -/
def top (o : LoaderOptions) : Text :=
  assignment o.exportAs ++ header o.target.capabilities

/-- What stands after the modules. -/
def bottom (o : LoaderOptions) : Text :=
  footer o.target.capabilities (entryExpression o.entryPoint)

/-- All modules between the top and the bottom, with the marker. -/
def inside (o : LoaderOptions) (parts : List Text) : List Text :=
  o.importAs.map importModule ++ parts ++ [marker]

/-- **A bundle and its parts.** -/
theorem wrap_eq (o : LoaderOptions) {parts : List Text} (h : parts ≠ []) :
    wrap o (['\n'].intercalate parts) =
      ['\n'].intercalate (top o :: ((inside o parts).map (Text.indent margin) ++ [bottom o])) := by
  have hbody : body o (['\n'].intercalate parts) = ['\n'].intercalate (inside o parts) :=
    Lists.intercalate_nested _ _ [marker] h
  have hinside : inside o parts ≠ [] := by simp [inside]
  have hindent : (inside o parts).map (Text.indent margin) ≠ [] := by simp [hinside]
  rw [wrap, hbody, show ("    ".toList : Text) = margin from rfl, Text.indent_intercalate hinside]
  exact Lists.intercalate_nested _ [top o] [bottom o] hindent

end AmdBundle.Loader
