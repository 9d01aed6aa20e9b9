import SceneScript.Script.Basic
/-!
# Faults of a script

A fault is a mistake of the author, or a position that no longer fits an edited project. Its message
is written for the author. One fault is none of the script: behind the last index of all there is no
other one, and a program that counts on from there stops.
-/

namespace SceneScript

/-- What is wrong with the order of the branches; places count from one. -/
inductive BranchFault where
  | noBranch
  | firstIsNotIf
  | repeatedIf (place : Nat)
  | elseBeforeEnd (place : Nat)
  deriving DecidableEq, Repr, Inhabited

inductive ConditionFault where
  | flagAgainstNumber (name : String) (value : Int64)
  | flagOrdered (name : String) (operator : Comparison)
  | variableAgainstBool (name : String) (value : Bool)
  deriving DecidableEq, Repr, Inhabited

inductive PositionFault where
  | noChoice
  | commandMissing (index : Index) (count : Nat)
  | ownerMissing (index : Index)
  | branchMissing (index : Index)
  | notOwner (id : String)
  deriving DecidableEq, Repr, Inhabited

inductive Fault where
  | undefined (kind : SymbolKind) (name : String)
  | missingGroup (id : String)
  | cyclicGroup (id : String) (chain : List String)
  | missingScene (index : Index) (count : Nat)
  | malformedBranch (cause : BranchFault)
  | invalidCondition (cause : ConditionFault)
  | invalidChoice (index count : Index)
  | invalidPosition (cause : PositionFault)
  | endless (limit : Nat)
  | overflow
  deriving DecidableEq, Repr, Inhabited

namespace SymbolKind

def label : SymbolKind → String
  | .flag => "标志"
  | .variable => "变量"

end SymbolKind

namespace BranchFault

def message : BranchFault → String
  | noBranch => "条件列表为空"
  | firstIsNotIf => "第一个条件必须是 if"
  | repeatedIf place => s!"第 {place} 个条件重复使用 if"
  | elseBeforeEnd place => s!"else 必须是最后一个条件（位于第 {place} 个）"

end BranchFault

namespace ConditionFault

def message : ConditionFault → String
  | flagAgainstNumber name value => s!"标志 '{name}' 只能与布尔值比较，实际为 {value.toInt}"
  | flagOrdered name operator => s!"标志 '{name}' 不支持运算符 '{operator.symbol}'"
  | variableAgainstBool name value => s!"变量 '{name}' 只能与整数比较，实际为 {value}"

end ConditionFault

namespace PositionFault

def message : PositionFault → String
  | noChoice => "等待选择时当前命令不是带选项的对话"
  | commandMissing index count => s!"命令索引 {index.toNat} 超出当前列表长度 {count}"
  | ownerMissing index => s!"子列表拥有者索引 {index.toNat} 已不存在"
  | branchMissing index => s!"分支 {index.toNat} 已不存在"
  | notOwner id => s!"命令 '{id}' 已不是子列表的拥有者"

end PositionFault

namespace Fault

def message : Fault → String
  | undefined kind name => s!"{kind.label} '{name}' 未定义"
  | missingGroup id => s!"共享命令 '{id}' 不存在"
  | cyclicGroup id chain => s!"共享命令 '{id}' 存在循环调用: " ++ " -> ".intercalate chain
  | missingScene index count => s!"场景索引 {index.toNat} 越界，场景数量为 {count}"
  | malformedBranch cause => s!"分支结构不合法: {cause.message}"
  | invalidCondition cause => s!"条件无效: {cause.message}"
  | invalidChoice index count =>
    s!"无效的选择索引 {index.toNat}，有效范围是 0..{count.toNat}"
  | invalidPosition cause => s!"执行位置无效: {cause.message}"
  | endless limit => s!"单次推进执行超过 {limit} 条命令，脚本可能存在无等待的循环"
  | overflow => "attempt to add with overflow"

end Fault

/-- The next index, unless it is the last one. -/
def Index.next (index : Index) : Except Fault Index :=
  if index.toNat + 1 < UInt64.size then .ok (index + 1) else .error .overflow

end SceneScript
