import SceneScript.Fault
/-!
# Findings

A finding names a place in the project and says what is remarkable there. Errors are what a run
fails on when it gets there.
-/

namespace SceneScript

inductive Severity where
  | info | warning | error
  deriving DecidableEq, Repr, Inhabited

namespace Severity

def rank : Severity → Nat
  | info => 0 | warning => 1 | error => 2

def label : Severity → String
  | info => "INFO" | warning => "WARN" | error => "ERROR"

end Severity

/-- A place in a project; commands and branches count from zero. -/
inductive Place where
  | project
  | flags
  | vars
  | scene (index : Nat) (label : String)
  | group (id : String)
  | command (list : Place) (index : Nat)
  | branch (owner : Place) (index : Nat)
  deriving DecidableEq, Repr, Inhabited

def Place.text : Place → String
  | project => "工程"
  | flags => "标志"
  | vars => "变量"
  | scene index label => s!"场景 {index} ({label})"
  | group id => s!"共享命令 {id}"
  | command list index => s!"{list.text} / 命令 #{index}"
  | branch owner index => s!"{owner.text} / 分支 {index}"

/-- What leads to a scene. -/
inductive Departure where
  | goto
  | choice (index : Nat)
  deriving DecidableEq, Repr, Inhabited

def Departure.text : Departure → String
  | goto => "goto"
  | choice index => s!"选项 {index}"

inductive Remark where
  | repeatedFlag (name : String)
  | repeatedVariable (name : String)
  | noScene
  | emptyScene
  | fault (cause : Fault)
  | target (departure : Departure) (cause : Fault)
  deriving DecidableEq, Repr, Inhabited

namespace Remark

def severity : Remark → Severity
  | repeatedFlag _ | repeatedVariable _ => .warning
  | noScene | emptyScene => .info
  | fault _ | target _ _ => .error

def message : Remark → String
  | repeatedFlag name => s!"重复的标志名: {name}"
  | repeatedVariable name => s!"重复的变量名: {name}"
  | noScene => "工程没有任何场景"
  | emptyScene => "场景没有命令"
  | fault cause => cause.message
  | target _ cause => cause.message

/-- A second line for the author. -/
def detail? : Remark → Option String
  | repeatedFlag _ | repeatedVariable _ => some "按名称引用时只会命中第一个"
  | target departure _ => some s!"{departure.text} 的目标场景"
  | _ => none

end Remark

structure Finding where
  place : Place
  remark : Remark
  deriving DecidableEq, Repr, Inhabited

namespace Finding

def severity (finding : Finding) : Severity := finding.remark.severity

def text (finding : Finding) : String :=
  let head := s!"[{finding.severity.label}] {finding.place.text}: {finding.remark.message}"
  match finding.remark.detail? with
  | some detail => s!"{head}\n  | {detail}"
  | none => head

/-- The findings of one severity. -/
def count (severity : Severity) (findings : List Finding) : Nat :=
  findings.countP (·.severity == severity)

/-- The findings that are at least so severe. -/
def atLeast (severity : Severity) (findings : List Finding) : List Finding :=
  findings.filter fun finding => severity.rank ≤ finding.severity.rank

end Finding
end SceneScript
