import DependencyLint.Command.Run

/-!
# The program

Reads the files that a command line is about, runs it on them, and writes what has changed.
-/

open DependencyLint

/-- The place that an absolute path leads to. -/
def placeOf (path : String) : Place := (Path.ofText path).pieces.filter Path.isName

def pathOf (place : Place) : String := "/" ++ "/".intercalate (place.map RawText.shown)

/-- The files and directories at and below a path. What cannot be read is empty. -/
partial def readTree (path : String) : IO FileTree := do
  let place ← IO.FS.realPath path
  if ← place.isDir then
    try
      let entries ← (← place.readDir).toList.mapM fun entry => do
        pure (RawText.ofText entry.fileName, ← readTree (path ++ "/" ++ entry.fileName))
      pure (.dir entries)
    catch _ => pure (.dirWith { read := false } [])
  else
    try
      pure (.file (← IO.FS.readBinFile path))
    catch _ => pure (.fileWith { read := false } .empty)

/-- Adds what is at a path to a tree. -/
def readInto (tree : FileTree) (path : Path) : IO FileTree := do
  try
    let place ← IO.FS.realPath path.text
    pure (FileTree.put (← readTree path.text) (placeOf place.toString) tree)
  catch _ => pure tree

/-- All files of a tree with their places. -/
partial def storedFiles (place : Place) : FileTree → List (Place × ByteArray)
  | .fileWith _ content => [(place, content)]
  | .dirWith _ entries => entries.flatMap fun (name, tree) => storedFiles (place ++ [name]) tree

/-- Writes the files of a tree that differ from those of an earlier one. -/
def writeChanges (old new : FileTree) : IO Unit := do
  for (place, content) in storedFiles [] new do
    let isSame := match old.at? place with
      | some (.fileWith _ before) => before == content
      | _ => false
    if !isSame then
      IO.FS.createDirAll (pathOf place.dropLast)
      IO.FS.writeBinFile (pathOf place) content

/-- The paths of a check: those of the command line, and those of the manifest in the tree. -/
def checkPaths (options : Command.CheckOptions) (files : FileSystem) : List Path :=
  let modules := match Command.loadManifest files options with
    | .ok manifest => manifest.modules
    | .error _ => []
  [some options.project, options.manifest, options.settings, options.report].filterMap id ++
    modules.flatMap fun m =>
      m.directory :: m.configurations.flatMap fun c => c.resolved.flatMap (·.artifacts)

def main (args : List String) : IO UInt32 := do
  let workingDir := placeOf (← IO.FS.realPath ".").toString
  let environment : Command.Environment := {
    settingsDir := (← IO.getEnv "DEP_SEEKER_CONFIG_DIR").map Path.ofText
    home := (← IO.getEnv "HOME").map Path.ofText }
  let mut tree ← (⟨"."⟩ :: environment.settingsFile?.toList).foldlM readInto FileTree.empty
  if let some (.check options) := Command.parse args then
    tree ← (checkPaths options ⟨tree, workingDir⟩).foldlM readInto tree
    -- the manifest may be one of the files that were just read
    tree ← (checkPaths options ⟨tree, workingDir⟩).foldlM readInto tree
  let outcome := Command.run ⟨tree, workingDir⟩ environment args
  writeChanges tree outcome.files.tree
  IO.print outcome.output
  for warning in outcome.warnings do
    IO.eprintln ("WARN " ++ warning)
  for error in outcome.error.toList do
    IO.eprintln error
  pure outcome.exit.toUInt32
