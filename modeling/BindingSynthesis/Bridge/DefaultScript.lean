import BindingSynthesis.Text.Lines

/-!
# BindingSynthesis.Bridge.DefaultScript

The extractor script that is used if no other is chosen.

It imports a library in the interpreter, asks for the signatures of its functions and
classes, and prints one document on the last line of its output.  Nothing here depends on
what it says: it is handed to an interpreter as it is.
-/

namespace BindingSynthesis.Bridge

/-- The lines of the script. -/
def scriptLines : List String := [
  "\"\"\"Shallow signature extractor used by wrapweld's python bridge.",
  "",
  "Usage: python analyzer.py <library> [<allow-list json>]",
  "Prints one JSON document on the last line of stdout.",
  "\"\"\"",
  "",
  "import importlib",
  "import inspect",
  "import json",
  "import pkgutil",
  "import re",
  "import sys",
  "",
  "SKIP_SUFFIXES = (\".f2py\",)",
  "SIGNATURE_IN_DOC = re.compile(r\"^\\s*[A-Za-z_][A-Za-z0-9_]*\\((.*?)\\)\")",
  "",
  "",
  "def load(name):",
  "    try:",
  "        return importlib.import_module(name)",
  "    except BaseException:",
  "        return None",
  "",
  "",
  "def split_params(text):",
  "    \"\"\"Names and optional count from a textual parameter list.\"\"\"",
  "    names, optional = [], 0",
  "    for piece in text.split(\",\"):",
  "        piece = piece.strip()",
  "        if not piece or piece in (\"/\", \"*\") or piece == \"$module\":",
  "            continue",
  "        names.append(piece.split(\"=\")[0].strip().lstrip(\"$\"))",
  "        optional += \"=\" in piece",
  "    return names, optional",
  "",
  "",
  "def signature_of(obj, doc):",
  "    try:",
  "        params = list(inspect.signature(obj).parameters.values())",
  "    except (TypeError, ValueError):",
  "        params = []",
  "    if params:",
  "        optional = sum(",
  "            1",
  "            for p in params",
  "            if p.default is not inspect.Parameter.empty",
  "            or p.kind in (p.VAR_POSITIONAL, p.VAR_KEYWORD)",
  "        )",
  "        return [p.name for p in params], optional",
  "",
  "    # Builtins and ufuncs: fall back to __text_signature__, then the doc's first line",
  "    text = getattr(obj, \"__text_signature__\", None)",
  "    if isinstance(text, str) and text:",
  "        return split_params(text.strip().strip(\"()\"))",
  "    match = SIGNATURE_IN_DOC.match(doc)",
  "    if match:",
  "        return split_params(match.group(1))",
  "    return [], 0",
  "",
  "",
  "def callable_entry(obj, module):",
  "    try:",
  "        doc = inspect.getdoc(obj) or \"\"",
  "    except Exception:",
  "        doc = \"\"",
  "    args, optional = signature_of(obj, doc)",
  "    return \x7b",
  "        \"name\": getattr(obj, \"__name__\", repr(obj)),",
  "        \"args\": args,",
  "        \"optionalCount\": optional,",
  "        \"doc\": doc,",
  "        \"module\": module,",
  "    \x7d",
  "",
  "",
  "def class_entry(cls):",
  "    methods = []",
  "    for name, member in inspect.getmembers(cls, inspect.isfunction):",
  "        if name.startswith(\"__\") and name.endswith(\"__\") and name != \"__init__\":",
  "            continue",
  "        entry = callable_entry(member, cls.__module__)",
  "        entry[\"name\"] = name",
  "        methods.append(entry)",
  "    return \x7b",
  "        \"name\": cls.__name__,",
  "        \"doc\": inspect.getdoc(cls) or \"\",",
  "        \"module\": cls.__module__,",
  "        \"methods\": methods,",
  "    \x7d",
  "",
  "",
  "def analyze(library, allow):",
  "    root = load(library)",
  "    if root is None:",
  "        return \x7b\"error\": \"Failed to import \" + library\x7d",
  "",
  "    functions, classes = \x7b\x7d, \x7b\x7d",
  "",
  "    def wanted(name):",
  "        return not allow or name in allow",
  "",
  "    def visit(mod):",
  "        if mod is None:",
  "            return",
  "        for _, obj in inspect.getmembers(mod, callable):",
  "            module = getattr(obj, \"__module__\", \"\") or \"\"",
  "            if not module.startswith(library):",
  "                continue",
  "            # Classes are callables too and get a module-level factory binding",
  "            if inspect.isclass(obj):",
  "                key = module + \".\" + obj.__name__",
  "                if wanted(obj.__name__) and key not in classes:",
  "                    classes[key] = class_entry(obj)",
  "            name = getattr(obj, \"__name__\", None)",
  "            if name and wanted(name) and name not in functions:",
  "                functions[name] = callable_entry(obj, module)",
  "",
  "    visit(root)",
  "    if not allow and hasattr(root, \"__path__\"):",
  "        for _, sub, _ in pkgutil.walk_packages(root.__path__, library + \".\", onerror=lambda _: None):",
  "            if not sub.endswith(SKIP_SUFFIXES):",
  "                visit(load(sub))",
  "",
  "    return \x7b",
  "        \"library\": library,",
  "        \"functions\": list(functions.values()),",
  "        \"classes\": list(classes.values()),",
  "    \x7d",
  "",
  "",
  "if __name__ == \"__main__\":",
  "    allow_list = json.loads(sys.argv[2]) if len(sys.argv) > 2 else []",
  "    print(json.dumps(analyze(sys.argv[1], set(allow_list))))"]

/-- The script, if no other is chosen. -/
def defaultScript : String := Text.joined "\n" scriptLines ++ "\n"

end BindingSynthesis.Bridge
