import AmdBundle.Proofs.Bundle.Outcomes
import AmdBundle.Proofs.Loader.Wrap

/-!
# Bundles are known by their marker

* `Text.occursIn_iff` : a word occurs in a text if it is a part of it;
* `isBundle_of_bundle` : every bundle is known as one.
-/

set_option autoImplicit false

namespace AmdBundle

theorem Text.occursIn_iff {word text : Text} : occursIn word text = true ↔ word <:+: text := by
  induction text with
  | nil => simp [occursIn, List.infix_nil]
  | cons c text ih => simp [occursIn, List.infix_cons_iff, ih]

/-- The marker stands among the modules of a bundle, behind a margin. -/
theorem Loader.marker_infix_wrap (o : LoaderOptions) (code : Text) : marker <:+: wrap o code := by
  have hjoin : wrap o code = wrap o (['\n'].intercalate [code]) := by
    rw [List.intercalate_singleton]
  have hindent : Text.indent margin marker = margin ++ marker := by decide +kernel
  have hmem : Text.indent margin marker ∈
      top o :: ((inside o [code]).map (Text.indent margin) ++ [bottom o]) := by
    simp [inside]
  rw [hjoin, wrap_eq o (List.cons_ne_nil code [])]
  exact (hindent ▸ (List.suffix_append margin marker).isInfix).trans (Lists.infix_intercalate hmem)

theorem isBundle_of_bundle {fs : FileTree} {o : BundleOptions} {code out : Text}
    (h : bundle fs o code = some (.ok out)) : isBundle out = true := by
  obtain ⟨_, _, -, -, rfl⟩ := bundle_eq_ok_iff.mp h
  exact Text.occursIn_iff.mpr (Loader.marker_infix_wrap o.loader _)

end AmdBundle
