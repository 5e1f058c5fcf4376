import ChainIndexer.CommandLine

/-!
The program. It reads its settings and keeps its cursor in files, and hands each post over as a line
of JSON on its standard output; the process at the other end answers with a line on standard input,
which holds a `status` and a `body`, or a `problem` and a `text`.
-/

namespace ChainIndexer.Main

/-- The fault for an error of the system. -/
def faultOf : IO.Error → Fault
  | .alreadyExists .. => .fileExists
  | .inappropriateType .. => .isDirectory
  | .resourceBusy .. => .isDirectory
  | _ => .noSuchFile

/-- An operation on a file. -/
def onFile {α : Type} (path : String) (x : IO α) : Act IO α :=
  ExceptT.mk do
    try
      return .ok (← x)
    catch e => return .error (.file (faultOf e) path)

def packed (bs : Bytes) : ByteArray := ⟨bs.toArray⟩

def disk : Disk IO where
  isThere path := do
    try
      let _ ← IO.FS.Handle.mk path .read
      return true
    catch _ => return false
  read path := onFile path do return (← IO.FS.readBinFile path).data.toList
  create path := onFile path (IO.FS.writeBinFile path (packed []))
  append path bs := onFile path do
    let handle ← IO.FS.Handle.mk path .append
    handle.write (packed bs)
  replace source target := onFile source (IO.FS.rename source target)
  makeDirectory path := onFile path (IO.FS.createDirAll path)

def postLine (p : Post) : String :=
  let content := match p.content with
    | .json v => ("json", v)
    | .text s => ("body", .text s)
  match Json.write (.object
      [("url", .text p.url), ("headers", .object p.headers), ("timeout", .ofAmount p.timeout),
        content]) with
  | .ok s => s
  | .error _ => "null"

/-- The answer in a line. -/
def answerOf (line : String) : Except NoAnswer Answer :=
  let broken : NoAnswer := ⟨.connectionError, "no answer"⟩
  match Json.read line with
  | .ok (.object fields) =>
    match Value.field? fields "status", Value.field? fields "body" with
    | some (.int status), some (.text body) => .ok ⟨status, body⟩
    | _, _ =>
      match Value.field? fields "problem", Value.field? fields "text" with
      | some (.text problem), some (.text text) =>
        .error ⟨(RequestProblem.ofName? problem).getD .requestException, text⟩
      | _, _ => .error broken
  | _ => .error broken

def wait (a : Amount) : IO Unit :=
  IO.sleep ((a.toFloat?.getD 0) * 1000).toUInt32

/-- The connection over standard output and input. -/
def http : Http IO where
  post p := do
    let output ← IO.getStdout
    output.putStrLn (postLine p)
    output.flush
    return answerOf (← (← IO.getStdin).getLine)
  refusal := Clock.refusal
  pause := wait
  jitter := do return (← IO.rand 0 999999).toFloat / 1000000

def variableNames : List String :=
  ["RPC_URL_OVERRIDE", "RPC_API_TOKEN", "CONTRACT_ADDRESS", "INDEXER_NETWORK", "PUSH_URL",
    "INDEXER_PAGE_SIZE"]

def environment : IO Settings.Environment := do
  let values ← variableNames.mapM fun name => do return (name, ← IO.getEnv name)
  return fun name => (values.find? fun v => v.1 == name).bind (·.2)

/-- Runs a loop to its end. -/
partial def runLoop {n : Type → Type} [Monad n] [Inhabited (Act n Unit)] (x : Indexer n)
    (limit : Option Int) (p : Progress) : Act n Unit := do
  match ← x.round limit p with
  | some p => runLoop x limit p
  | none => return ()

def usage : String :=
  "usage: chain-indexer [-h] [--config CONFIG] [--once]"

/-- Runs a command and gives the status. -/
def runCommand (c : CommandLine.Command) : IO UInt32 := do
  let env ← environment
  match ← (Setup.load (Settings.documents disk) env disk c.config).observe with
  | .error e =>
    if CommandLine.isReported e.kind then
      IO.eprintln (CommandLine.report e)
      return 2
    else
      IO.eprintln (e.text CommandLine.headline)
      return 1
  | .ok setup =>
    let world : Setup.World IO :=
      { http, disk, sleep := wait, keep := fun _ => return (), isStopped := return false }
    match ← setup.play (runLoop (setup.indexer world) c.limit {}) with
    | .ok () => return 0
    | .error e =>
      IO.eprintln (e.text CommandLine.headline)
      return 1

end ChainIndexer.Main

open ChainIndexer ChainIndexer.Main in
/-- Index protocol events from one network. -/
def main (args : List String) : IO UInt32 := do
  match CommandLine.requestOf args with
  | .help => IO.println usage; return 0
  | .misuse => IO.eprintln usage; return 2
  | .run c => runCommand c
