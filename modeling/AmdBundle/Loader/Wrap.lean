import AmdBundle.Loader.Runtime
import AmdBundle.Options
import AmdBundle.Text.Lines

/-!
# Wrapping modules in the loader

* `marker` : a statement in every bundle, by which a bundle is known;
* `importModule` : a name of the host as a module;
* `wrap` : modules inside the loader.
-/

set_option autoImplicit false

namespace AmdBundle.Loader

/-- The statement by which a bundle is known. -/
def marker : Text :=
  "'marker:resolver';".toList

/-- What the exports of the bundle are assigned to. -/
def assignment : ExportAs → Text
  | .nowhere => []
  | .commonJs => "module.exports = ".toList
  | .global name => "var ".toList ++ name ++ " = ".toList

/-- The flag of the module of an import. -/
def importFlag : ImportKind → Text
  | .byDefault => "__esModule".toList
  | .asNamespace => "__cjsModule".toList

/-- The module of an import, whose default export is the name of the host. -/
def importModule (i : ImportAs) : Text :=
  "define(".toList ++ Text.quote i.inner ++
    ", [\"exports\"], function (exports) \x7b\n    exports.".toList ++ importFlag i.kind ++
    " = true;\n    exports[\"default\"] = host[".toList ++ Text.quote i.outer ++
    "];\n\x7d);".toList

/-- The expression for the module to start with. -/
def entryExpression : Option Text → Text
  | some name => Text.quote name
  | none => "entry[0]".toList

/-- The modules of the imports, then the code, then the marker. -/
def body (o : LoaderOptions) (code : Text) : Text :=
  ['\n'].intercalate (o.importAs.map importModule ++ [code, marker])

def wrap (o : LoaderOptions) (code : Text) : Text :=
  ['\n'].intercalate
    [assignment o.exportAs ++ header o.target.capabilities,
      Text.indent "    ".toList (body o code),
      footer o.target.capabilities (entryExpression o.entryPoint)]

end AmdBundle.Loader
