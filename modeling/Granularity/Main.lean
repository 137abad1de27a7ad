import Granularity.Command.Run
import Granularity.Activity.CrashReport

/-!
The command. It takes the part of the file system that a run looks at into a file tree, runs on that
tree, prints what the run prints, and writes back what changed.
-/

namespace Granularity.Command

structure Snapshot where
  tree : FileTree
  whole : List Place

def Snapshot.put (s : Snapshot) (place : Place) (e : Entry) : Snapshot :=
  { s with tree := s.tree.put place e }

def nowhere : Path := ⟨"/ / "⟩

/-- Takes the entries on the way along the segments; if `whole` says so, also all that lies below its
end. Behind a link the way goes on from the place that the link leads to. -/
partial def take (whole : Bool) (s : Snapshot) (dir : Place) (segments : List (List Char)) : IO Snapshot := do
  match segments with
  | [] =>
    if !whole || s.whole.contains dir then return s
    let mut s := { s with whole := dir :: s.whole }
    for child in ← (System.mkFilePath [(FileTree.absolutePath dir).text]).readDir do
      s ← take true s dir [child.fileName.toList]
    return s
  | segment :: rest =>
    if segment = [] ∨ segment = ['.'] then take whole s dir rest
    else if segment = ['.', '.'] then take whole s dir.dropLast rest
    else
      let here := dir ++ [String.ofList segment]
      let path := (FileTree.absolutePath here).text
      match ← (System.mkFilePath [path]).symlinkMetadata.toBaseIO with
      | .error _ => return s
      | .ok found =>
        match found.type with
        | .dir => take whole (s.put here .directory) here rest
        | .symlink =>
          if ← (System.mkFilePath [path]).pathExists then
            let target : Path := ⟨(← IO.FS.realPath path).toString⟩
            take whole (s.put here (.link target)) [] (target.segments ++ rest)
          else return s.put here (.link nowhere)
        | _ =>
          match ← (IO.FS.readBinFile path).toBaseIO with
          | .ok bytes => return s.put here (.file bytes)
          | .error _ => return s

def takePath (whole : Bool) (s : Snapshot) (path : Path) : IO Snapshot :=
  take whole s (FileTree.start path s.tree.workingDirectory) path.segments

def snapshot (a : Arguments) : IO FileTree := do
  let directory : Path := ⟨(← IO.currentDir).toString⟩
  let s ← take false ⟨⟨[], []⟩, []⟩ [] directory.segments
  let names := (directory.segments.filter (!·.isEmpty)).map String.ofList
  let root := Analysis.resolveRoot a.repository a.module?
  let mut s ← takePath false { s with tree.workingDirectory := names } root
  for path in a.settings.toList ++ a.output.toList do
    s ← takePath false s path
  for above in Settings.searchPath s.tree root do
    s ← takePath false s (above.join ⟨settingsFile⟩)
  if let .ok settings := (Settings.assemble s.tree a root).1 then
    for source in [settings.layout.records, settings.layout.containers, settings.layout.validations] do
      s ← takePath true s (root.join source)
  return s.tree

def writeBack (before after : FileTree) : IO Unit :=
  for (place, e) in after.entries do
    if before.entryAt? place != some e then
      let path := (FileTree.absolutePath place).text
      match e with
      | .directory => IO.FS.createDirAll path
      | .file bytes => IO.FS.writeBinFile path bytes
      | .link _ => pure ()

def usageLines : List String :=
  ["Usage: grainmap [OPTIONS] <REPO_PATH>",
    "",
    "Options:",
    "  -o, --output <OUTPUT>      Also write the JSON report to this file",
    "  -s, --severity <SEVERITY>  Only report issues of this severity (HIGH, MEDIUM or LOW)",
    "  -m, --module <MODULE>      Analyze a single module directory inside the repository",
    "  -c, --config <CONFIG>      Configuration file (defaults to the nearest .grainmap.toml)",
    "  -f, --format <FORMAT>      Console output format (terminal or json)",
    "      --no-parallel          Scan files sequentially",
    "  -j, --jobs <JOBS>          Number of worker threads (0 = all cores)",
    "  -v, --verbose...           Increase verbosity",
    "      --plain                Disable colored output",
    "  -h, --help                 Print help",
    "  -V, --version              Print version"]

def usage : String :=
  String.join (usageLines.map (· ++ "\n"))

def reportUsage : UsageError → IO Unit
  | .help => IO.print usage
  | .version => IO.print ("grainmap " ++ Crash.version ++ "\n")
  | .missingRequired => IO.eprint ("error: <REPO_PATH> was not provided\n\n" ++ usage)
  | .unknownArgument => IO.eprint ("error: unexpected argument\n\n" ++ usage)
  | .invalidValue => IO.eprint ("error: a value is missing or not possible\n\n" ++ usage)
  | .valueValidation => IO.eprint ("error: invalid value\n\n" ++ usage)
  | .conflict => IO.eprint ("error: an option cannot be used multiple times\n\n" ++ usage)
  | .tooManyValues => IO.eprint ("error: unexpected value\n\n" ++ usage)

def execute (a : Arguments) : IO UInt32 := do
  let before ← snapshot a
  let colour := (← (← IO.getStdout).isTty) && (← IO.getEnv "NO_COLOR").isNone
  let outcome := a.run before colour fun _ => "not a document of the expected shape"
  for e in outcome.log.atLeast (logLevel a.verbosity) do
    IO.eprint ("[" ++ e.level.name ++ "] " ++ e.message ++ "\n")
  IO.print outcome.stdout
  writeBack before outcome.tree
  if let some line := outcome.stderr? then IO.eprint (line ++ "\n")
  return outcome.exitCode.toUInt32

end Granularity.Command

open Granularity in
def main (args : List String) : IO UInt32 := do
  match Arguments.parse args (← IO.getEnv "GRAINMAP_JOBS") with
  | .ok a => Command.execute a
  | .error e =>
    Command.reportUsage e
    return e.exitCode.toUInt32
