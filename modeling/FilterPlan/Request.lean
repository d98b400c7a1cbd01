import FilterPlan.Dict
import FilterPlan.Text.Blank

/-!
# Requests

A request is a list of keys with values in the order of arrival. Values are trimmed, keys are not, and a
key that comes again replaces its value in place.
-/

namespace FilterPlan

/-- The parameters of a request. -/
@[ext] structure Request where
  /-- The trimmed values, by key. -/
  params : Dict Text := {}

namespace Request

/-- The keys with their values, in order. -/
def entries (r : Request) : List (Text × Text) :=
  r.params.entries

/-- The number of keys. -/
def size (r : Request) : Nat :=
  r.params.size

/-- The value of a key. -/
def get? (r : Request) (key : Text) : Option Text :=
  r.params.get? key

/-- Puts a value under a key. -/
def insert (r : Request) (key value : Text) : Request :=
  ⟨r.params.insert key value.trim⟩

/-- Puts values under keys, one after the other. -/
def ofList (l : List (Text × Text)) : Request :=
  l.foldl (fun r e => r.insert e.1 e.2) {}

end Request

end FilterPlan
