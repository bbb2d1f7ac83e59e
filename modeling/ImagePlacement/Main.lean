import ImagePlacement.CommandLine.Output

namespace ImagePlacement

/-- Why the disk refuses a path. -/
def faultOnDisk : IO.Error → PathFault
  | .noFileOrDirectory .. => .missing
  | .inappropriateType none .. => .isFolder
  | .inappropriateType (some _) .. => .notFolder
  | .invalidArgument (some _) _ "name too long" => .nameTooLong
  | .permissionDenied _ 13 _ => .other "Permission denied (os error 13)"
  | e => .other e.toString

/-- What stands at a path on disk. The length of a file is learnt by reading it, so of one that is
there but cannot be read none is told. -/
def pathOnDisk (path : String) : IO PathView := do
  if path.contains '\x00' then return .absent .embeddedNul
  match ← (IO.FS.readBinFile path).toBaseIO with
  | .ok content => return .file content.toList
  | .error e =>
    match faultOnDisk e, ← (IO.FS.realPath path).toBaseIO with
    | .isFolder, _ => return .folder
    | fault, .ok _ => return ⟨.ok (.file 0), .error fault⟩
    | fault, .error _ => return .absent fault

end ImagePlacement

open ImagePlacement in
/-- Carries out the order of a command line. -/
def main (arguments : List String) : IO UInt32 := do
  match CommandLine.Order.ofArguments arguments with
  | .error stop =>
    if stop.isHarmless then
      IO.println stop.message
      return 0
    else
      IO.eprintln ("error: " ++ stop.message)
      return 2
  | .ok order =>
    let paths := order.path :: order.config.toList
    let views ← paths.mapM pathOnDisk
    let view : FileView := fun path => ((paths.zip views).lookup path).getD (.absent .missing)
    let (outcome, events) := order.run view
    for warning in events.filterMap Event.warning? do
      IO.eprintln warning
    match outcome with
    | .done report =>
      IO.println (report.written.pretty 0)
      return 0
    | .failed diagnostic =>
      IO.eprintln (diagnostic.written.pretty 0)
      return 1
    | .aborted reason =>
      IO.eprintln reason
      return 101
