/-!
# Kinds of replacement policy

The four policies, without their state, and their names.
-/

namespace DemandPaging

/-- A replacement policy by name. -/
inductive PolicyKind where
  /-- The page unused for longest goes first. -/
  | lru
  /-- The page loaded first goes first. -/
  | fifo
  /-- Pages in frame order go, each after one second chance if it was used. -/
  | clock
  /-- Any frame may go. -/
  | random
  deriving DecidableEq, Repr

namespace PolicyKind

/-- Every policy, in the order in which a comparison of all of them runs. -/
def all : List PolicyKind := [lru, fifo, clock, random]

/-- The policy's name in messages and on the command line. -/
def name : PolicyKind → String
  | lru => "lru"
  | fifo => "fifo"
  | clock => "clock"
  | random => "random"

instance : ToString PolicyKind := ⟨name⟩

/-- The policy with the given name, the inverse of `name`. Names are matched letter by letter,
so capitals are not accepted. -/
def ofName? (s : String) : Option PolicyKind :=
  all.find? (·.name == s)

theorem mem_all (k : PolicyKind) : k ∈ all := by
  cases k <;> decide

end PolicyKind

end DemandPaging
