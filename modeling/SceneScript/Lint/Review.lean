import SceneScript.Lint.Finding
import SceneScript.Run.Execution
/-!
# Reviewing a project

A review goes through all commands, whether or not a run would get to them, and judges them by the
rules that the run itself follows. Conditions are tried with the declared values.
-/

namespace SceneScript

namespace Project

/-- Flags and variables with the values that they are declared with. -/
def declared (project : Project) : Symbols where
  flagValue name := (project.findFlag? name).map (·.value)
  variableValue name := (project.findVariable? name).map (·.value)

end Project

namespace Review

/-- The finding of a check that fails. -/
def ofCheck {α : Type} (place : Place) : Except Fault α → List Finding
  | .ok _ => []
  | .error fault => [⟨place, .fault fault⟩]

/-- The names that have occurred before in a list, once for each further time. -/
def repeatedNames : List String → List String → List String
  | _, [] => []
  | seen, name :: rest =>
    if seen.contains name then name :: repeatedNames seen rest
    else repeatedNames (name :: seen) rest

variable (project : Project)

def ofTarget (place : Place) (departure : Departure) (scene : Index) : List Finding :=
  match project.sceneAt scene with
  | .ok _ => []
  | .error fault => [⟨place, .target departure fault⟩]

def ofFlag (place : Place) (name : String) : List Finding :=
  match project.findFlag? name with
  | some _ => []
  | none => [⟨place, .fault (.undefined .flag name)⟩]

def ofVariable (place : Place) (name : String) : List Finding :=
  match project.findVariable? name with
  | some _ => []
  | none => [⟨place, .fault (.undefined .variable name)⟩]

/-- An enabled target and a flag to set are checked, in this order. -/
def ofChoice (place : Place) (choice : Choice) (index : Nat) : List Finding :=
  (if choice.enableGoto then ofTarget project place (.choice index) choice.goto else [])
    ++ match choice.flagEffect with
      | some (name, _) => ofFlag project place name
      | none => []

/-- The findings of a command without those of its branches. -/
def ofAction (place : Place) : Action Command → List Finding
  | .dialogue _ _ choices =>
    (choices.zipIdx.map fun (choice, index) => ofChoice project place choice index).flatten
  | .branching _ branches => ofCheck place (Condition.checkStructure (branches.map (·.condition)))
  | .setFlag name _ => ofFlag project place name
  | .setVariable name _ _ => ofVariable project place name
  | .call group => ofCheck place (project.groupAt group)
  | .goto scene _ => ofTarget project place .goto scene
  | _ => []

mutual

def ofCommand (place : Place) : Command → List Finding
  | ⟨_, .branching label branches⟩ =>
    ofAction project place (.branching label branches) ++ ofBranches place 0 branches
  | ⟨_, action⟩ => ofAction project place action
termination_by structural command => command

/-- The conditions and bodies of the branches from `index` on. -/
def ofBranches (place : Place) (index : Nat) : List (Branch Command) → List Finding
  | [] => []
  | ⟨condition, body⟩ :: rest =>
    ofCheck place (condition.evaluate (m := Id) project.declared)
      ++ ofCommands (.branch place index) 0 body ++ ofBranches place (index + 1) rest
termination_by structural branches => branches

/-- The commands of a list from `index` on. -/
def ofCommands (list : Place) (index : Nat) : List Command → List Finding
  | [] => []
  | command :: rest =>
    ofCommand (.command list index) command ++ ofCommands list (index + 1) rest
termination_by structural commands => commands

end

def ofScene (index : Nat) (scene : Scene) : List Finding :=
  let place := .scene index (if scene.name = "" then scene.id else scene.name)
  (if scene.commands.isEmpty then [⟨place, .emptyScene⟩] else [])
    ++ ofCommands project place 0 scene.commands

/-- Two chains of calls run through the same groups. -/
def sameMembers (chain other : List String) : Bool :=
  chain.all other.contains && other.all chain.contains

/-- The cycles that calls of these groups run into, each reported for the first group to meet it. -/
def ofCycles : List (List String) → List CommandGroup → List Finding
  | _, [] => []
  | reported, group :: rest =>
    match project.checkGroup group.id with
    | .error (.cyclicGroup id chain) =>
      if reported.any (sameMembers chain) then ofCycles reported rest
      else ⟨.group group.id, .fault (.cyclicGroup id chain)⟩ :: ofCycles (chain :: reported) rest
    | _ => ofCycles reported rest

end Review

/-- All findings of a project. -/
def Project.review (project : Project) : List Finding :=
  (Review.repeatedNames [] (project.flags.map (·.name))).map (⟨.flags, .repeatedFlag ·⟩)
    ++ (Review.repeatedNames [] (project.vars.map (·.name))).map
      (⟨.vars, .repeatedVariable ·⟩)
    ++ (if project.scenes.isEmpty then [⟨.project, .noScene⟩] else [])
    ++ (project.scenes.zipIdx.map fun (scene, index) => Review.ofScene project index scene).flatten
    ++ (project.sharedCommands.map fun group =>
      Review.ofCommands project (.group group.id) 0 group.commands).flatten
    ++ Review.ofCycles project [] project.sharedCommands

end SceneScript
