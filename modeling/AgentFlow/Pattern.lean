import AgentFlow.Data.SortedMap
import AgentFlow.Text.Blank
import AgentFlow.Text.Case

/-!
# Workflow patterns

The vocabulary of recommendations: patterns of agent workflows, the small scaffolds that stand in
for them when a requirement is simple, the stage of work in which a requirement is read, and sizes.

* `Pattern.ofName?_name`: the name of a pattern reads back.
-/

namespace AgentFlow

open Text

/-! ## Patterns -/

/-- A pattern of agent workflows.  The order of the constructors breaks ties between scores. -/
inductive Pattern where
  | rag
  | agent
  | tool
  | workflow
  | mapReduce
  | multiAgent
  | structuredOutput
  /-- Two patterns composed into one. -/
  | hybrid
  deriving DecidableEq, Inhabited

namespace Pattern

/-- The patterns that can be recommended, in declaration order. -/
def base : List Pattern :=
  [rag, agent, tool, workflow, mapReduce, multiAgent, structuredOutput]

def all : List Pattern := base ++ [hybrid]

/-- The place in the declaration order. -/
def rank : Pattern → Nat
  | rag => 0
  | agent => 1
  | tool => 2
  | workflow => 3
  | mapReduce => 4
  | multiAgent => 5
  | structuredOutput => 6
  | hybrid => 7

def name : Pattern → String
  | rag => "RAG"
  | agent => "AGENT"
  | tool => "TOOL"
  | workflow => "WORKFLOW"
  | mapReduce => "MAPREDUCE"
  | multiAgent => "MULTI_AGENT"
  | structuredOutput => "STRUCTURED_OUTPUT"
  | hybrid => "HYBRID"

/-- Whether the pattern can be recommended or forced. -/
def isBase (p : Pattern) : Bool := p != hybrid

def ofName? (s : String) : Option Pattern := all.find? (·.name == s)

/-- Separators that a written name may have between its words. -/
def isJoint (c : Char) : Bool := c == '_' || c == '-' || c == ' '

/-- The letters of a name: no separators, and upper case only. -/
def letters (s : String) : String := upper (String.ofList (s.toList.filter fun c => !isJoint c))

/-- The pattern that a user writes, in any case and with any separators. -/
def parse? (s : String) : Option Pattern :=
  all.find? fun p => letters p.name == letters (trim s)

theorem rank_injective {p q : Pattern} (h : p.rank = q.rank) : p = q := by
  cases p <;> cases q <;> first | rfl | simp [rank] at h

instance : Data.Key Pattern where
  lt p q := p.rank < q.rank
  decLt p q := inferInstanceAs (Decidable (p.rank < q.rank))
  trans := Nat.lt_trans
  irrefl p := Nat.lt_irrefl p.rank
  trichotomous h₁ h₂ := rank_injective (Nat.le_antisymm (Nat.not_lt.mp h₂) (Nat.not_lt.mp h₁))

theorem ofName?_name (p : Pattern) : ofName? p.name = some p := by
  cases p <;> decide

theorem name_injective {p q : Pattern} (h : p.name = q.name) : p = q := by
  have hread := ofName?_name p
  rw [h, ofName?_name] at hread
  exact (Option.some.inj hread).symm

theorem isBase_iff_mem (p : Pattern) : p.isBase = true ↔ p ∈ base := by
  cases p <;> decide

end Pattern

/-! ## Scaffolds for simple requirements -/

/-- A small scaffold that takes the place of a pattern's own nodes. -/
inductive Scaffold where
  | simpleWorkflow
  | basicApi
  | simpleEtl
  deriving DecidableEq, Inhabited

namespace Scaffold

def all : List Scaffold := [simpleWorkflow, basicApi, simpleEtl]

def name : Scaffold → String
  | simpleWorkflow => "SIMPLE_WORKFLOW"
  | basicApi => "BASIC_API"
  | simpleEtl => "SIMPLE_ETL"

def ofName? (s : String) : Option Scaffold := all.find? (·.name == s)

/-- The scaffold that a user writes, in any case and with hyphens or spaces for underscores. -/
def parse? (s : String) : Option Scaffold :=
  ofName? (replaceChars (fun c => c == '-' || c == ' ') ['_'] (upper (trim s)))

end Scaffold

/-! ## Stages of work -/

/-- The stage of work in which a requirement is read; it weighs the indicators of a pattern. -/
inductive Stage where
  | planProduct
  | createSpec
  | executeTasks
  deriving DecidableEq

namespace Stage

instance : Inhabited Stage := ⟨createSpec⟩

def all : List Stage := [planProduct, createSpec, executeTasks]

def name : Stage → String
  | planProduct => "plan-product"
  | createSpec => "create-spec"
  | executeTasks => "execute-tasks"

def ofName? (s : String) : Option Stage := all.find? (·.name == s)

/-- The stage that a user writes; anything unknown is the writing of a specification. -/
def read (s : String) : Stage :=
  let key := lower (trim s)
  if key == "plan" || key == "plan-product" || key == "plan_product" then planProduct
  else if key == "execute" || key == "execute-tasks" || key == "execute_tasks" then executeTasks
  else createSpec

end Stage

/-! ## Sizes -/

inductive Complexity where
  | simple
  | moderate
  | complex
  deriving DecidableEq, Inhabited

namespace Complexity

/-- All levels, from the least demanding. -/
def all : List Complexity := [simple, moderate, complex]

/-- The place in the order of levels. -/
def rank : Complexity → Nat
  | simple => 0
  | moderate => 1
  | complex => 2

def name : Complexity → String
  | simple => "simple"
  | moderate => "moderate"
  | complex => "complex"

def ofName? (s : String) : Option Complexity := all.find? (·.name == s)

end Complexity

inductive SizePreference where
  | simple
  | full
  deriving DecidableEq, Inhabited

namespace SizePreference

def name : SizePreference → String
  | simple => "simple"
  | full => "full"

def ofName? (s : String) : Option SizePreference :=
  if s == "simple" then some simple else if s == "full" then some full else none

/-- The preference that a user writes, in any case. -/
def parse? (s : String) : Option SizePreference :=
  let key := lower s
  if key == "simple" then some simple
  else if key == "full" || key == "complex" then some full
  else none

/-- What is said about a text that is no preference. -/
def unknownMessage (s : String) : String :=
  "Unknown complexity preference: " ++ s ++ ". Valid values: simple, full"

end SizePreference

end AgentFlow
