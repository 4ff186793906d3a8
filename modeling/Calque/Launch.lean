import Calque.Json.Library
import Calque.Machine.Files

namespace Calque

inductive LaunchFault
  | file (fault : Machine.Fault)
  | interpreter (program : String) (fault : Machine.Fault)

def LaunchFault.message : LaunchFault → String
  | .file fault => fault.fileMessage
  | .interpreter program fault =>
    "Could not start interpreter '" ++ program ++ "': " ++ fault.message

structure Launcher where
  interpreter : String
  /-- The command that turns a dialect module into host text, if modules go through one. -/
  moduleCommand : Option (List String)

namespace Launcher

def defaultInterpreter : String := "python3"

def default : Launcher := ⟨defaultInterpreter, none⟩

def moduleVariable : String := "PTBR_MODULE_TRANSLATOR"

def bootstrapLines : List String := [
  "import importlib.machinery, json, os, subprocess, sys, sysconfig, types",
  "staged, script = sys.argv[1], sys.argv[2]",
  "",
  "translator = os.environ.pop(\"PTBR_MODULE_TRANSLATOR\", None)",
  "if translator and not any(getattr(f, \"ptbr_finder\", False) for f in sys.meta_path):",
  "    command = json.loads(translator)",
  "    stdlib = getattr(sys, \"stdlib_module_names\", frozenset())",
  "    library = tuple(",
  "        os.path.join(os.path.realpath(p), \"\")",
  "        for key, p in sysconfig.get_paths().items()",
  "        if key in (\"stdlib\", \"platstdlib\", \"purelib\", \"platlib\")",
  "    )",
  "",
  "    class PtbrLoader(importlib.machinery.SourceFileLoader):",
  "        def get_code(self, fullname):",
  "            path = self.get_filename(fullname)",
  "            done = subprocess.run(command + [\"translate\", path], capture_output=True)",
  "            if done.returncode != 0:",
  "                message = done.stderr.decode(\"utf-8\", \"replace\").strip()",
  "                raise ImportError(message or f\"could not translate \x7bpath\x7d\", name=fullname, path=path)",
  "            return compile(done.stdout.decode(\"utf-8\"), path, \"exec\", dont_inherit=True)",
  "",
  "    class PtbrFinder:",
  "        ptbr_finder = True",
  "",
  "        @classmethod",
  "        def find_spec(cls, fullname, path=None, target=None):",
  "            if fullname.partition(\".\")[0] in stdlib:",
  "                return None",
  "            spec = importlib.machinery.PathFinder.find_spec(fullname, path, target)",
  "            if spec is None or not isinstance(spec.loader, importlib.machinery.SourceFileLoader):",
  "                return None",
  "            origin = os.path.realpath(spec.origin)",
  "            parts = origin.split(os.sep)",
  "            if origin.startswith(library) or \"site-packages\" in parts or \"dist-packages\" in parts:",
  "                return None",
  "            spec.loader = PtbrLoader(fullname, spec.origin)",
  "            return spec",
  "",
  "    sys.meta_path.insert(0, PtbrFinder)",
  "",
  "with open(staged, encoding=\"utf-8\") as f:",
  "    code = compile(f.read(), script, \"exec\")",
  "sys.argv = sys.argv[2:]",
  "sys.path[0] = os.path.dirname(os.path.abspath(script))",
  "module = types.ModuleType(\"__main__\")",
  "module.__file__ = script",
  "sys.modules[\"__main__\"] = module",
  "exec(code, module.__dict__)"
  ]

/-- The text that the interpreter is given as its program: every line with its line end. -/
def bootstrap : String := .join (bootstrapLines.map (· ++ "\n"))

variable {ε : Type} (lib : Json.Library ε)

def moduleCommandText (command : List String) : String := lib.write (.array (command.map .string))

def command (l : Launcher) (staged script : String) (args : List String) : Machine.Command where
  program := l.interpreter
  arguments := "-c" :: bootstrap :: staged :: script :: args
  environment := [(moduleVariable, l.moduleCommand.map (moduleCommandText lib))]

variable {m : Type → Type} {Draft : Type} [Monad m]

def run (l : Launcher) (machine : Machine m Draft) (script program : String)
    (args : List String) : m (Except LaunchFault Nat) := do
  match ← machine.createDraft machine.scratch with
  | .error fault => pure (.error (.file fault))
  | .ok draft =>
    let result ← do
      match ← machine.writeDraft draft (bytes program.toList) with
      | .error fault => pure (.error (.file fault))
      | .ok () =>
        match ← machine.flushDraft draft with
        | .error fault => pure (.error (.file fault))
        | .ok () =>
          match ← machine.execute (l.command lib (machine.draftPath draft) script args) with
          | .error fault => pure (.error (.interpreter l.interpreter fault))
          | .ok exit => pure (.ok exit.status)
    machine.discard draft
    pure result

end Launcher

end Calque
