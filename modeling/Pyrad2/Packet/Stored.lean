import Pyrad2.Dictionary

/-!
# Stored attributes

What a packet holds under a key: a list of values, or, under a container, a map from sub-attribute
codes, whose entries are of the same two kinds.

The type of the values is a parameter. A packet stores whatever its codecs return; the decoder only
ever stores byte strings, and says so in its type.
-/

namespace Pyrad2

/-- A list of values, or a map from sub-attribute codes. -/
inductive Stored (α : Type) where
  | vals (vs : List α)
  | node (m : List (Int × Stored α))

/-- A map from sub-attribute codes. -/
abbrev SubMap (α : Type) := List (Int × Stored α)

/-- The attributes of a packet. -/
abbrev Attrs (α : Type) := OrderedDict Key (Stored α)

/-- The text Python prints for a key. -/
def Key.repr : Key → String
  | .int n => toString n
  | .tup l => "(" ++ ", ".intercalate (l.map toString) ++ ")"

/-- The error of storing a sub-attribute below a list. -/
def notTlvMap (level : Key) : Exn :=
  .packetError ("storage at level " ++ level.repr ++ " is not a TLV map")

variable {α β : Type}

namespace Stored

mutual

/-- Apply a function to every value. -/
def map (f : α → β) : Stored α → Stored β
  | vals vs => vals (vs.map f)
  | node m => node (mapSub f m)
  termination_by structural s => s

/-- Apply a function to every value of a map. -/
def mapSub (f : α → β) : SubMap α → SubMap β
  | [] => []
  | (code, s) :: rest => (code, map f s) :: mapSub f rest
  termination_by structural l => l

end

/-- `stored.items()` -/
def items : Stored α → Except Exn (SubMap α)
  | vals _ => .error .attributeError
  | node m => .ok m

end Stored

/-! ### Appending -/

/-- `target.setdefault(code, []).extend(values)` -/
def extendNode (code : Int) (vs : List α) (m : SubMap α) : Except Exn (SubMap α) :=
  match Assoc.get? code m with
  | none => .ok (Assoc.set code (.vals vs) m)
  | some (.vals old) => .ok (Assoc.set code (.vals (old ++ vs)) m)
  | some (.node _) => .error .attributeError

/-- Append values below the nested maps that `path` leads through, creating them when absent. -/
def extendPath (code : Int) (vs : List α) : List Int → SubMap α → Except Exn (SubMap α)
  | [], m => extendNode code vs m
  | level :: path, m =>
    match Assoc.get? level m with
    | none => return Assoc.set level (.node (← extendPath code vs path [])) m
    | some (.node sub) => return Assoc.set level (.node (← extendPath code vs path sub)) m
    | some (.vals _) => .error (notTlvMap (.int level))

/-- `self.setdefault(key, []).extend(values)` -/
def extendTop (key : Key) (vs : List α) (attrs : Attrs α) : Except Exn (Attrs α) :=
  match attrs.get? key with
  | none => .ok (attrs.set key (.vals vs))
  | some (.vals old) => .ok (attrs.set key (.vals (old ++ vs)))
  | some (.node _) => .error .attributeError

end Pyrad2
