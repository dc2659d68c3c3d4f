import AmdBundle.Target

/-!
# The loader

A small loader of modules goes around the modules of a bundle. It is written with what the target of
the bundle has, and with nothing newer.

* `Capabilities.fixed` and so on : the spellings that depend on a target;
* `header` : the lines before the modules; `footer` : the lines after them, which start the module
  that an expression names.
-/

set_option autoImplicit false

namespace AmdBundle

namespace Capabilities

/-- How a name is declared that keeps its value. -/
def fixed (c : Capabilities) : String :=
  if c.blockScoping then "const" else "var"

/-- How a name is declared that changes its value. -/
def changing (c : Capabilities) : String :=
  if c.blockScoping then "let" else "var"

/-- How a function of the exports begins. -/
def exportsFunction (c : Capabilities) : String :=
  if c.arrowFunctions then "(exports) =>" else "function (exports)"

/-- How an error is caught that nobody looks at. -/
def catchClause (c : Capabilities) : String :=
  if c.optionalCatchBinding then "catch" else "catch (error)"

/-- How the function of a module is called with its dependencies. -/
def invocation (c : Capabilities) : String :=
  if c.spreadArguments then "definition.factory(...dependencies)"
  else "definition.factory.apply(null, dependencies)"

end Capabilities

namespace Loader

def joined (lines : List String) : Text :=
  ['\n'].intercalate (lines.map String.toList)

/-! ## Before the modules -/

/-- The tables of the loader and what it asks of them. -/
def opening (c : Capabilities) : List String :=
  ["(function () \x7b",
    "    " ++ c.fixed ++ " defines = \x7b\x7d;",
    "    " ++ c.fixed ++ " entry = [null];",
    "    " ++ c.fixed ++ " instances = \x7b\x7d;",
    "    " ++ c.fixed ++ " host = typeof globalThis !== \"undefined\" ? globalThis",
    "        : typeof window !== \"undefined\" ? window",
    "        : typeof self !== \"undefined\" ? self",
    "        : this;",
    "",
    "    function has(table, name) \x7b",
    "        return Object.prototype.hasOwnProperty.call(table, name);",
    "    \x7d",
    "",
    "    function set_default(exports, flag, value) \x7b"]

/-- How the default export and its flag are set. -/
def setDefault (c : Capabilities) : List String :=
  if c.defineProperty then
    ["        Object.defineProperty(exports, flag, \x7b value: true \x7d);",
      "        Object.defineProperty(exports, \"default\", \x7b value: value \x7d);"]
  else
    ["        exports[flag] = true;",
      "        exports[\"default\"] = value;"]

/-- What modules are defined with, and the module that stands for the host. -/
def defining (c : Capabilities) : List String :=
  ["    \x7d",
    "",
    "    function host_require(name) \x7b",
    "        if (typeof require !== \"function\") \x7b",
    "            throw new Error(\"require is not available in this host.\");",
    "        \x7d",
    "        return require(name);",
    "    \x7d",
    "",
    "    function define(name, dependencies, factory) \x7b",
    "        defines[name] = \x7b dependencies: dependencies, factory: factory \x7d;",
    "        entry[0] = name;",
    "    \x7d",
    "",
    "    define(\"require\", [\"exports\"], " ++ c.exportsFunction ++ " \x7b",
    "        set_default(exports, \"__cjsModule\", host_require);",
    "    \x7d);"]

def header (c : Capabilities) : Text :=
  joined (opening c ++ setDefault c ++ defining c)

/-! ## After the modules -/

/-- How a module is found: by its name, as the index of a folder, or in the host. -/
def finding (c : Capabilities) : List String :=
  ["    function get_define(name) \x7b",
    "        if (has(defines, name)) \x7b",
    "            return defines[name];",
    "        \x7d",
    "        if (has(defines, name + \"/index\")) \x7b",
    "            return defines[name + \"/index\"];",
    "        \x7d",
    "        return \x7b",
    "            dependencies: [\"exports\"],",
    "            factory: " ++ c.exportsFunction ++ " \x7b",
    "                " ++ c.changing ++ " value;",
    "                try \x7b",
    "                    value = host_require(name);",
    "                \x7d " ++ c.catchClause ++ " \x7b",
    "                    throw new Error(\"module \" + name + \" not found.\");",
    "                \x7d",
    "                set_default(exports, \"__cjsModule\", value);",
    "            \x7d",
    "        \x7d;",
    "    \x7d"]

/-- How a module is run, once for all that ask for it. -/
def resolving (c : Capabilities) : List String :=
  ["    function resolve(name) \x7b",
    "        if (has(instances, name)) \x7b",
    "            return instances[name].value;",
    "        \x7d",
    "        " ++ c.fixed ++ " definition = get_define(name);",
    "        " ++ c.fixed ++ " exports = \x7b\x7d;",
    "        " ++ c.fixed ++ " record = \x7b state: \"registered\", value: exports \x7d;",
    "        instances[name] = record;",
    "        try \x7b",
    "            " ++ c.fixed ++ " dependencies = [];",
    "            for (" ++ c.changing ++ " i = 0; i < definition.dependencies.length; i++) \x7b",
    "                " ++ c.fixed ++ " dependency = definition.dependencies[i];",
    "                dependencies.push(dependency === \"exports\" ? exports : resolve(dependency));",
    "            \x7d",
    "            " ++ c.invocation ++ ";",
    "            record.state = \"ready\";",
    "        \x7d finally \x7b",
    "            if (record.state !== \"ready\") \x7b",
    "                delete instances[name];",
    "            \x7d",
    "        \x7d",
    "        if (exports[\"__cjsModule\"]) \x7b",
    "            record.value = exports[\"default\"];",
    "        \x7d",
    "        return record.value;",
    "    \x7d"]

def starting (entry : String) : List String :=
  ["    if (entry[0] !== null) \x7b",
    "        return resolve(" ++ entry ++ ");",
    "    \x7d",
    "\x7d)();"]

/-- The loader after the modules; `entry` is the expression for the first module. -/
def footer (c : Capabilities) (entry : Text) : Text :=
  joined (finding c ++ [""] ++ resolving c ++ [""] ++ starting (String.ofList entry))

end Loader

end AmdBundle
