import PartnerChains.Library.Checked
import PartnerChains.Library.OrderedMap

/-!
# JSON values

The members of an object are in the order of their names. A number is an integer of 64 bits or a
finite floating-point number.
-/

namespace PartnerChains

inductive Json.Number where
  | posInt (value : UInt64)
  | negInt (value : Int64) (negative : value < 0)
  | float (bits : UInt64) (finite : bits &&& 0x7ff0000000000000 ≠ 0x7ff0000000000000)

inductive Json where
  | null
  | bool (value : Bool)
  | number (value : Json.Number)
  | string (value : String)
  | array (items : List Json)
  | object (members : List (String × Json))

namespace Json

open OrderedMap

/-! ## Members -/

def typeName : Json → String
  | null => "null"
  | bool _ => "boolean"
  | number _ => "number"
  | string _ => "string"
  | array _ => "array"
  | object _ => "object"

def isObject : Json → Bool
  | object _ => true
  | _ => false

/-- Only an object has members. -/
def get (json : Json) (name : String) : Option Json :=
  match json with
  | object members => lookupEntry name members
  | _ => none

/-- Assign to a member. Null is turned into an object; every other value that is not an object
stops the program. -/
def set (json : Json) (name : String) (value : Json) : Except Panic Json :=
  match json with
  | null => .ok (object [(name, value)])
  | object members => .ok (object (insertEntry name value members))
  | other => .error ⟨s!"cannot access key \"{name}\" in JSON {other.typeName}"⟩

variable {json updated value member : Json} {name other : String}

theorem exists_set_iff : (∃ updated, json.set name value = .ok updated) ↔
    json = null ∨ json.isObject := by
  cases json <;> simp [set, isObject]

theorem isObject_of_get (h : json.get name = some member) : json.isObject := by
  cases json with
  | object members => rfl
  | _ => cases h

theorem get_set (h : json.set name value = .ok updated) (other : String) :
    updated.get other = if other = name then some value else json.get other := by
  cases json with
  | null =>
      cases h
      by_cases hname : other = name
      · simp [get, lookupEntry, hname]
      · simp [get, lookupEntry, hname, Ne.symm hname]
  | object members =>
      cases h
      exact lookupEntry_insertEntry name value members other
  | _ => cases h

theorem get_set_self (h : json.set name value = .ok updated) : updated.get name = some value := by
  rw [get_set h, if_pos rfl]

theorem get_set_of_ne (h : json.set name value = .ok updated) (hne : other ≠ name) :
    updated.get other = json.get other := by
  rw [get_set h, if_neg hne]

/-- Of two assignments to a member, the later one counts. -/
theorem set_set (h : json.set name value = .ok updated) (value' : Json) :
    updated.set name value' = json.set name value' := by
  cases json with
  | null =>
      cases h
      simp [set, insertEntry]
  | object members =>
      cases h
      simp [set, insertEntry_insertEntry]
  | _ => cases h

/-! ## Well-formed values -/

/-- The names of the members ascend in every object. -/
inductive WellFormed : Json → Prop
  | null : WellFormed null
  | bool (value : Bool) : WellFormed (bool value)
  | number (value : Number) : WellFormed (number value)
  | string (value : String) : WellFormed (string value)
  | array {items : List Json} (hitems : ∀ item ∈ items, WellFormed item) :
      WellFormed (array items)
  | object {members : List (String × Json)}
      (ascending : members.Pairwise fun a b => a.1 < b.1)
      (hmembers : ∀ member ∈ members, WellFormed member.2) : WellFormed (object members)

theorem WellFormed.get (h : json.WellFormed) (hget : json.get name = some member) :
    member.WellFormed := by
  cases h with
  | object ascending hmembers =>
      exact hmembers _ ((mem_iff_lookupEntry ascending).mpr hget)
  | _ => cases hget

theorem WellFormed.set (h : json.WellFormed) (hvalue : value.WellFormed)
    (hset : json.set name value = .ok updated) : updated.WellFormed := by
  cases h with
  | null =>
      cases hset
      exact .object (List.pairwise_singleton _ _) (by simpa using hvalue)
  | object ascending hmembers =>
      cases hset
      refine .object (insertEntry_ascending name value ascending) fun member hmember => ?_
      rcases mem_insertEntry hmember with rfl | hold
      · exact hvalue
      · exact hmembers member hold
  | _ => cases hset

/-! ## Nesting -/

mutual

/-- How many arrays and objects lie inside each other. -/
def depth : Json → ℕ
  | array items => depthOfItems items + 1
  | object members => depthOfMembers members + 1
  | _ => 0

def depthOfItems : List Json → ℕ
  | [] => 0
  | item :: items => max item.depth (depthOfItems items)

def depthOfMembers : List (String × Json) → ℕ
  | [] => 0
  | (_, value) :: members => max value.depth (depthOfMembers members)

end

theorem depth_le_of_lookupEntry {members : List (String × Json)}
    (h : lookupEntry name members = some value) : value.depth ≤ depthOfMembers members := by
  induction members with
  | nil => cases h
  | cons first members ih =>
      rw [lookupEntry] at h
      rw [depthOfMembers]
      split_ifs at h
      · cases h
        exact le_max_left _ _
      · exact (ih h).trans (le_max_right _ _)

theorem depthOfMembers_insertEntry_le (name : String) (value : Json)
    (members : List (String × Json)) :
    depthOfMembers (insertEntry name value members) ≤ max value.depth (depthOfMembers members) := by
  induction members with
  | nil => simp [insertEntry, depthOfMembers]
  | cons first members ih =>
      rw [insertEntry]
      split_ifs <;> simp only [depthOfMembers] <;> omega

theorem depth_lt_of_get (h : json.get name = some member) : member.depth < json.depth := by
  cases json with
  | object members =>
      rw [depth]
      exact Nat.lt_succ_of_le (depth_le_of_lookupEntry h)
  | _ => cases h

theorem depth_lt_of_set (h : json.set name value = .ok updated) : value.depth < updated.depth :=
  depth_lt_of_get (get_set_self h)

theorem depth_set_le (h : json.set name value = .ok updated) :
    updated.depth ≤ max json.depth (value.depth + 1) := by
  cases json with
  | null =>
      cases h
      simp [depth, depthOfMembers]
  | object members =>
      cases h
      have hle := depthOfMembers_insertEntry_le name value members
      simp only [depth]
      omega
  | _ => cases h

end Json

/-! ## Texts -/

/-- The arrays and objects inside each other that a text is read with. -/
def Json.nestingLimit : ℕ := 127

/-- A format of JSON texts: which well-formed value a text denotes, how texts are read and how
values are written. A text of a value that is nested too deeply is not read. -/
structure JsonFormat (Text : Type*) where
  Denotes : Text → Json → Prop
  fromStr : Text → Option Json
  toStringPretty : Json → Text
  wellFormed_of_denotes : ∀ {text json}, Denotes text json → json.WellFormed
  denotes_toStringPretty : ∀ {json}, json.WellFormed → Denotes (toStringPretty json) json
  fromStr_of_denotes : ∀ {text json}, Denotes text json →
    fromStr text = if json.depth ≤ Json.nestingLimit then some json else none

end PartnerChains
