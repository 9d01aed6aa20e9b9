import SceneScript.CommandLine
import SceneScript.Lint.Review
import SceneScript.Png.Decode
import SceneScript.Png.Encode
import SceneScript.Publish.Html
import SceneScript.Show.Recording
import Std.Time.DateTime.Timestamp
/-!
# The program

Reads and writes files for the tasks of the command line.
-/

namespace SceneScript

namespace Program

/-- Stops with a message. -/
def fail {α : Type} (message : String) : IO α := throw (IO.userError message)

/-- Says what was being done when something went wrong. -/
def doing {α : Type} (what : String) (action : IO α) : IO α :=
  try action catch error => fail s!"{what}\n\nCaused by:\n    {error}"

/-- The file, unless there is none. -/
def readIfThere (path : String) : IO (Option String) := do
  try return some (← IO.FS.readFile path)
  catch
    | .noFileOrDirectory .. => return none
    | error => fail s!"读取配置文件失败: {path}\n\nCaused by:\n    {error}"

def loadConfig (path : String) : IO Config := do
  match ← readIfThere path with
  | none => return {}
  | some text =>
    match Config.ofText? text with
    | some config => return config
    | none => fail s!"配置文件解析失败: {path}"

def loadProject (path : String) : IO Project := do
  let text ← doing s!"读取工程失败: {path}" (IO.FS.readFile path)
  match Project.ofText text with
  | .ok project => return project
  | .error error => fail s!"解析工程失败: {path}\n\nCaused by:\n    {error.message}"

def check (path : String) (verbose : Bool) : IO Unit := do
  let project ← loadProject path
  let findings := project.review
  for finding in Finding.atLeast (if verbose then .info else .warning) findings do
    IO.println finding.text
  let errors := Finding.count .error findings
  IO.println s!"{path}: {errors} 个错误，{Finding.count .warning findings} 个警告"
  if errors > 0 then fail "工程检查未通过"

def decoder : Decoder := fun bytes => Png.decode? ⟨bytes.toArray⟩

/-- A path inside a directory, unless it starts at the root. -/
def inside (directory path : String) : String :=
  if path.startsWith "/" then path
  else if directory.isEmpty || directory.endsWith "/" then directory ++ path
  else directory ++ "/" ++ path

/-- What reading a picture's file has led to. -/
def readPicture (directory source : String) : IO (Except String (List UInt8)) := do
  let path := inside directory source
  try return .ok (← IO.FS.readBinFile path).toList
  catch error => return .error s!"读取资源失败: {path}: {error}"

/-- The files of all pictures that do not stand in the project. -/
def readPictures (directory : String) (project : Project) :
    IO (List (String × Except String (List UInt8))) := do
  let (_, references) := AssetStore.loadEmbedded decoder {} project
  (references.filterMap (·.imageSource? project)).mapM fun source =>
    return (source, ← readPicture directory source)

def play (config : Config) (path : String) (choices : List Index) (maxFrames : Nat)
    (savePath : Option String) : IO Unit := do
  let project ← loadProject path
  let files ← readPictures config.assetsDir project
  let readFile (source : String) := (files.lookup source).getD (.error "读取资源失败")
  let store := Recording.pictures decoder readFile project
  doing s!"创建帧目录失败: {config.framesDir}" (IO.FS.createDirAll config.framesDir)
  let plan : RecordingPlan := {
    choices, maxFrames
    intervalMs := config.frameIntervalMs
    showSceneIndex := config.showSceneIndex }
  let recording := Recording.ofProject store.catalogue plan project
  for (number, image) in recording.frames do
    let path := inside config.framesDir (Recording.fileName number)
    doing s!"写入帧失败: {path}" (IO.FS.writeBinFile path (Png.encode image))
  let now := (← Std.Time.Timestamp.now).toSecondsSinceUnixEpoch
  match recording.save? (.ofNat now.val.toNat) with
  | .error fault => fail fault.message
  | .ok save =>
    if let some path := savePath then
      doing s!"写入存档失败: {path}" (IO.FS.writeFile path save.toText)

def publish (path loaderPath programPath output : String) (scale : Option UInt32) : IO Unit := do
  let project ← loadProject path
  let loader ← doing s!"读取加载器失败: {loaderPath}" (IO.FS.readFile loaderPath)
  let program ← doing s!"读取运行时失败: {programPath}" (IO.FS.readBinFile programPath)
  match project.toHtml ⟨loader, program.toList⟩ scale with
  | .error fault => fail fault.message
  | .ok html =>
    doing s!"写入失败: {output}" (IO.FS.writeFile output html)
    IO.println s!"已导出: {output}"

def run (line : CommandLine) : IO Unit := do
  let config := (← loadConfig line.configPath).apply line.overrides
  if config.level?.isNone then fail config.invalidLevel
  match line.task with
  | .check project verbose => check project verbose
  | .play project choices maxFrames save => play config project choices maxFrames save
  | .publish project loader program output scale => publish project loader program output scale

/-- Answers with the exit code. -/
def start (arguments : List String) : IO UInt32 := do
  match CommandLine.ofArguments arguments with
  | .error fault =>
    IO.eprintln s!"error: {fault.message}"
    return 2
  | .ok line =>
    try
      run line
      return 0
    catch error =>
      IO.eprintln s!"Error: {error}"
      return 1

end Program
end SceneScript

def main (arguments : List String) : IO UInt32 := SceneScript.Program.start arguments
