import Mathlib

/-! JSON values, with the accesses that throw on a value of the wrong kind. -/

set_option autoImplicit false

namespace Json

inductive Value where
  | null
  | bool (b : Bool)
  /-- an integer or a real, by the text that `asString` gives for it -/
  | number (text : String)
  | string (s : String)
  | array (elements : List Value)
  | object (members : List (String × Value))

inductive LogicError where
  | notConvertible
  | notObject
  deriving DecidableEq, Repr

namespace Value

variable {v dflt : Value} {key : String}

def asString : Value → Except LogicError String
  | .null => .ok ""
  | .bool b => .ok (if b then "true" else "false")
  | .number text => .ok text
  | .string s => .ok s
  | .array _ => .error .notConvertible
  | .object _ => .error .notConvertible

/-- `get(key, default)` -/
def get (v : Value) (key : String) (dflt : Value) : Except LogicError Value :=
  match v with
  | .null => .ok dflt
  | .object members => .ok ((members.lookup key).getD dflt)
  | _ => .error .notObject

/-- `find(key)`, which gives null for an absent member and throws on the other kinds. -/
def find (v : Value) (key : String) : Option Value :=
  match v with
  | .object members => members.lookup key
  | _ => none

def isMember (v : Value) (key : String) : Except LogicError Bool :=
  match v with
  | .null => .ok false
  | .object members => .ok (members.lookup key).isSome
  | _ => .error .notObject

/-- `members[key] = x`; the keys stay in their order. -/
def setMember (key : String) (x : Value) : List (String × Value) → List (String × Value)
  | [] => [(key, x)]
  | (name, y) :: rest =>
    if key < name then (key, x) :: (name, y) :: rest
    else if key = name then (key, x) :: rest
    else (name, y) :: setMember key x rest

def set (v : Value) (key : String) (x : Value) : Except LogicError Value :=
  match v with
  | .null => .ok (.object [(key, x)])
  | .object members => .ok (.object (setMember key x members))
  | _ => .error .notObject

/-- What an iterator goes through, each value with its `key().asString()`. -/
def entries : Value → List (String × Value)
  | .object members => members
  | .array elements => elements.mapIdx fun i x => (toString i, x)
  | _ => []

def isContainer : Value → Bool
  | .array _ => true
  | .object _ => true
  | _ => false

def isObjectOrNull : Value → Bool
  | .null => true
  | .object _ => true
  | _ => false

def text (v : Value) : String := v.asString.toOption.getD ""

def member (v : Value) (key : String) (dflt : Value) : Value :=
  (v.get key dflt).toOption.getD dflt

def memberText (v : Value) (key : String) : String := (v.member key .null).text

theorem asString_of_text (h : v.isContainer = false) : v.asString = .ok v.text := by
  cases v with
  | array elements => cases h
  | object members => cases h
  | _ => rfl

theorem asString_of_container (h : v.isContainer = true) :
    v.asString = .error .notConvertible := by
  cases v with
  | array elements => rfl
  | object members => rfl
  | _ => cases h

theorem get_of_object (h : v.isObjectOrNull = true) : v.get key dflt = .ok (v.member key dflt) := by
  cases v with
  | null => rfl
  | object members => rfl
  | _ => cases h

theorem get_of_other (h : v.isObjectOrNull = false) : v.get key dflt = .error .notObject := by
  cases v with
  | null => cases h
  | object members => cases h
  | _ => rfl

theorem isMember_of_object (h : v.isObjectOrNull = true) :
    v.isMember key = .ok (v.find key).isSome := by
  cases v with
  | null => rfl
  | object members => rfl
  | _ => cases h

theorem isMember_of_other (h : v.isObjectOrNull = false) :
    v.isMember key = .error .notObject := by
  cases v with
  | null => cases h
  | object members => cases h
  | _ => rfl

theorem member_eq : v.member key dflt = (v.find key).getD dflt := by
  cases v <;> rfl

theorem member_of_find {entry : Value} (h : v.find key = some entry) :
    v.member key dflt = entry := by
  rw [member_eq, h, Option.getD_some]

theorem eq_of_get {x : Value} (h : v.get key dflt = .ok x) : x = (v.find key).getD dflt := by
  cases v with
  | null => exact (Except.ok.inj h).symm
  | object members => exact (Except.ok.inj h).symm
  | _ => cases h

theorem isObjectOrNull_of_isMember {b : Bool} (h : v.isMember key = .ok b) :
    v.isObjectOrNull = true ∧ b = (v.find key).isSome := by
  cases hv : v.isObjectOrNull with
  | false =>
    rw [isMember_of_other hv] at h
    cases h
  | true =>
    rw [isMember_of_object hv] at h
    exact ⟨rfl, (Except.ok.inj h).symm⟩

theorem isObjectOrNull_of_find {entry : Value} (h : v.find key = some entry) :
    v.isObjectOrNull = true := by
  cases v with
  | null => rfl
  | object members => rfl
  | _ => cases h

theorem mem_entries_of_find {entry : Value} (h : v.find key = some entry) :
    (key, entry) ∈ v.entries := by
  cases v with
  | object members =>
    obtain ⟨before, after, heq, -⟩ := List.lookup_eq_some_iff.mp h
    simp [entries, heq]
  | _ => cases h

theorem lookup_member {name : String} {y : Value} {rest : List (String × Value)} :
    ((name, y) :: rest).lookup key = if key = name then some y else rest.lookup key := by
  rw [List.lookup_cons]
  by_cases hkey : key = name
  · rw [if_pos hkey, beq_iff_eq.mpr hkey]
  · rw [if_neg hkey, beq_eq_false_iff_ne.mpr hkey]

theorem lookup_setMember {key' : String} {x : Value} {members : List (String × Value)} :
    (setMember key x members).lookup key' = if key' = key then some x else members.lookup key' := by
  induction members with
  | nil => rw [setMember, lookup_member, List.lookup_nil]
  | cons entry rest ih =>
    obtain ⟨name, y⟩ := entry
    rw [setMember]
    split
    · rw [lookup_member]
    · split
      · rename_i heq
        subst heq
        rw [lookup_member, lookup_member]
        split <;> rfl
      · rename_i hne
        rw [lookup_member, lookup_member, ih]
        by_cases hkey : key' = key
        · rw [if_pos hkey, if_neg (hkey ▸ hne), if_pos hkey]
        · rw [if_neg hkey, if_neg hkey]

theorem find_set {key' : String} {x v' : Value} (h : v.set key x = .ok v') :
    v'.find key' = if key' = key then some x else v.find key' := by
  cases v with
  | null =>
    cases h
    exact lookup_member
  | object members =>
    cases h
    exact lookup_setMember
  | _ => cases h

end Value

/-! ### Objects that are built member by member -/

abbrev Members := Std.TreeMap String Value

namespace Members

variable {α : Type*} {m : Std.TreeMap String α} {key : String}

theorem lookup_toList : m.toList.lookup key = m[key]? := by
  ext x
  rw [← Std.TreeMap.mem_toList_iff_getElem?_eq_some]
  constructor
  · intro h
    obtain ⟨before, after, heq, _⟩ := List.lookup_eq_some_iff.mp h
    simp [heq]
  · intro hmem
    obtain ⟨y, hy⟩ := Option.isSome_iff_exists.mp
      (List.lookup_isSome_iff.mpr ⟨(key, x), hmem, beq_self_eq_true key⟩)
    obtain ⟨before, after, heq, _⟩ := List.lookup_eq_some_iff.mp hy
    have hfound : (key, y) ∈ m.toList := by simp [heq]
    rw [Std.TreeMap.mem_toList_iff_getElem?_eq_some] at hmem hfound
    rw [hy, ← hfound, hmem]

theorem toList_foldl_insert (xs : List (String × α)) (h : ((m.toList ++ xs).map Prod.fst).Nodup) :
    (xs.foldl (fun m x => m.insert x.1 x.2) m).toList.Perm (m.toList ++ xs) := by
  induction xs generalizing m with
  | nil => simp
  | cons x xs ih =>
    have hfresh : ∀ y ∈ m.toList, x.1 ≠ y.1 := by
      intro y hy heq
      rw [List.map_append, List.nodup_append] at h
      exact h.2.2 y.1 (List.mem_map_of_mem hy) x.1 (by simp) heq.symm
    have hinsert : (m.insert x.1 x.2).toList.Perm (x :: m.toList) := by
      refine Std.TreeMap.toList_insert_perm.trans (.of_eq ?_)
      rw [List.filter_eq_self.mpr fun y hy => by simpa using hfresh y hy]
    have hmiddle : ((m.insert x.1 x.2).toList ++ xs).Perm (m.toList ++ x :: xs) :=
      (hinsert.append_right xs).trans List.perm_middle.symm
    exact (ih ((hmiddle.map Prod.fst).nodup_iff.mpr h)).trans hmiddle

end Members

namespace Value

/-- A value that only `operator[]` has changed is null before its first member. -/
def ofMembers (m : Members) : Value := if m.isEmpty then .null else .object m.toList

theorem find_ofMembers (m : Members) (key : String) : (ofMembers m).find key = m[key]? := by
  unfold ofMembers
  split
  · rename_i hempty
    exact (Std.TreeMap.getElem?_of_isEmpty hempty).symm
  · exact Members.lookup_toList

end Value

end Json
