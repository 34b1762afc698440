import RelationFilter.Json.Basic

namespace RelationFilter.Json

inductive ReadError where
  | mismatch
  | missing (key : String)
  | unknownKind (field kind : String)
  | invalidOptions (field : String)
deriving DecidableEq, Repr

abbrev Read (α : Type) := Except ReadError α

structure Record where
  members : List (String × Json)
  isArray : Bool
  /-- There are more values than the record has members. -/
  surplus : Bool

def record (declared : List String) : Json → Read Record
  | object members => .ok ⟨members, false, false⟩
  | array items => .ok ⟨declared.zip items, true, declared.length < items.length⟩
  | _ => .error .mismatch

def Record.read {α : Type} (step : α → String → Json → Read α) (start : α) (r : Record) : Read α :=
  match r.members.foldlM (fun a m => step a m.1 m.2) start with
  | .ok a => if r.surplus then .error .mismatch else .ok a
  | .error e => .error e

def Record.need {α : Type} (r : Record) (key : String) : Option α → Read α
  | some a => .ok a
  | none => .error (if r.isArray then .mismatch else .missing key)

def asString : Json → Read String
  | string s => .ok s
  | _ => .error .mismatch

def asBool : Json → Read Bool
  | bool b => .ok b
  | _ => .error .mismatch

def asBelow (bound : Nat) : Json → Read Nat
  | int n => if 0 ≤ n ∧ n < bound then .ok n.toNat else .error .mismatch
  | _ => .error .mismatch

def asUInt32 (v : Json) : Read UInt32 := (asBelow UInt32.size v).map UInt32.ofNat

def asUInt64 (v : Json) : Read UInt64 := (asBelow UInt64.size v).map UInt64.ofNat

def asOption {α : Type} (read : Json → Read α) : Json → Read (Option α)
  | null => .ok none
  | v => (read v).map some

def asList {α : Type} (read : Json → Read α) : Json → Read (List α)
  | array items => items.mapM read
  | _ => .error .mismatch

def asStrings (v : Json) : Read (List String) := asList asString v

def asMembers : Json → Read Members
  | object members => .ok members
  | _ => .error .mismatch

def asName {α : Type} (ofName : String → Option α) : Json → Read α
  | string s => (ofName s).elim (.error .mismatch) .ok
  | object [(s, null)] => (ofName s).elim (.error .mismatch) .ok
  | _ => .error .mismatch

end RelationFilter.Json
