import Mathlib

/-! The pieces of the C++ standard library that the option strings go through. -/

set_option autoImplicit false

namespace WebrtcStreamer

/-- An `std::istringstream`: the characters not read yet, `eofbit` and `failbit`. -/
structure InputStream where
  rest : List Char
  eof : Bool
  fail : Bool
  deriving DecidableEq, Repr

def InputStream.ofString (s : String) : InputStream := ⟨s.toList, false, false⟩

/-- `std::getline(is, str, delim)`. The delimiter is consumed and not stored.
`eofbit` is set when the text ends first, `failbit` when nothing at all was
extracted; a stream that is not good only gets its `failbit`. -/
def getline (is : InputStream) (delim : Char) : InputStream × List Char :=
  if is.eof || is.fail then (⟨is.rest, is.eof, true⟩, [])
  else
    let line := is.rest.takeWhile (· ≠ delim)
    match is.rest.dropWhile (· ≠ delim) with
    | [] => (⟨[], true, line.isEmpty⟩, line)
    | _ :: tail => (⟨tail, false, false⟩, line)

section Getline

variable {x y : List Char} {d : Char}

theorem getline_delim (h : d ∉ x) :
    getline ⟨x ++ d :: y, false, false⟩ d = (⟨y, false, false⟩, x) := by
  have hall : ∀ c ∈ x, decide (c ≠ d) = true := fun c hc =>
    decide_eq_true fun heq => h (heq ▸ hc)
  simp only [getline, Bool.or_self, Bool.false_eq_true, if_false]
  rw [List.takeWhile_append_of_pos hall, List.dropWhile_append_of_pos hall]
  simp

theorem getline_end (h : d ∉ x) :
    getline ⟨x, false, false⟩ d = (⟨[], true, x.isEmpty⟩, x) := by
  have hall : ∀ c ∈ x, decide (c ≠ d) = true := fun c hc =>
    decide_eq_true fun heq => h (heq ▸ hc)
  simp only [getline, Bool.or_self, Bool.false_eq_true, if_false]
  rw [List.takeWhile_eq_self_iff.mpr hall, List.dropWhile_eq_nil_iff.mpr hall]

end Getline

def isspace (c : Char) : Bool := c = ' ' || ('\t' ≤ c && c ≤ '\r')

def digitsValue (ds : List Char) : Nat :=
  ds.foldl (fun n c => 10 * n + (c.toNat - '0'.toNat)) 0

/-- The number in front of a text: leading blanks, a sign and digits are read, what
follows is ignored. -/
def leadingInt (s : String) : Option Int :=
  let text := s.toList.dropWhile isspace
  let (negative, text) := match text with
    | '-' :: tail => (true, tail)
    | '+' :: tail => (false, tail)
    | _ => (false, text)
  let ds := text.takeWhile Char.isDigit
  if ds.isEmpty then none
  else some (if negative then -(digitsValue ds : Int) else digitsValue ds)

/-- `std::stoi`. `none` stands for `std::invalid_argument` and `std::out_of_range`. -/
def stoi (s : String) : Option Int :=
  (leadingInt s).filter fun n => -2 ^ 31 ≤ n && n < 2 ^ 31

/-- `atoi`: 0 where there is no number. What it gives for a number that is no `int` is
left open by the C standard. -/
def atoi (overflow : Int) (s : String) : Int :=
  match leadingInt s with
  | none => 0
  | some n => if -2 ^ 31 ≤ n && n < 2 ^ 31 then n else overflow

theorem stoi_bounds {s : String} {n : Int} (h : stoi s = some n) : -2 ^ 31 ≤ n ∧ n < 2 ^ 31 := by
  simpa using (Option.filter_eq_some_iff.mp h).2

theorem stoi_of_leadingInt {s : String} {n : Int} (h : leadingInt s = some n)
    (hlow : -2 ^ 31 ≤ n) (hhigh : n < 2 ^ 31) : stoi s = some n := by
  rw [stoi, h, Option.filter_some, if_pos]
  rw [Bool.and_eq_true, decide_eq_true_eq, decide_eq_true_eq]
  exact ⟨hlow, hhigh⟩

theorem atoi_of_stoi {s : String} {n : Int} (h : stoi s = some n) (overflow : Int) :
    atoi overflow s = n := by
  obtain ⟨hread, hrange⟩ := Option.filter_eq_some_iff.mp h
  simp only [atoi, hread, hrange, if_true]

section ToString

variable {n : Nat}

theorem isDigit_toString {c : Char} (h : c ∈ (toString n).toList) : c.isDigit = true :=
  Nat.isDigit_of_mem_toDigits (b := 10) (by decide) (by decide) (by simpa [Nat.repr] using h)

theorem toString_ne_nil (n : Nat) : (toString n).toList ≠ [] := by simp [Nat.repr]

theorem digitsValue_toString (n : Nat) : digitsValue (toString n).toList = n := by
  have hvalue := Nat.ofDigitChars_ten_toDigits (n := n)
  rw [Nat.ofDigitChars_eq_foldl] at hvalue
  simpa [digitsValue, Nat.repr] using hvalue

theorem not_blank_of_isDigit {c : Char} (h : c.isDigit = true) :
    isspace c = false ∧ c ≠ '-' ∧ c ≠ '+' := by
  refine ⟨?_, ?_, ?_⟩
  · by_contra hblank
    simp only [isspace, Bool.not_eq_false, Bool.or_eq_true, decide_eq_true_eq,
      Bool.and_eq_true] at hblank
    simp only [Char.isDigit, Bool.and_eq_true, decide_eq_true_eq, ge_iff_le] at h
    rcases hblank with rfl | hblank
    · exact absurd h.1 (by decide)
    · exact absurd (UInt32.le_trans h.1 (Char.le_def.mp hblank.2)) (by decide)
  · rintro rfl
    exact absurd h (by decide)
  · rintro rfl
    exact absurd h (by decide)

theorem takeWhile_toString {rest : List Char} (hrest : ∀ c ∈ rest.head?, c.isDigit = false) :
    ((toString n).toList ++ rest).takeWhile Char.isDigit = (toString n).toList := by
  rw [List.takeWhile_append_of_pos fun c => isDigit_toString]
  cases rest with
  | nil => simp
  | cons c rest => simp [hrest c rfl]

theorem leadingInt_toString_append {rest : List Char}
    (hrest : ∀ c ∈ rest.head?, c.isDigit = false) :
    leadingInt (String.ofList ((toString n).toList ++ rest)) = some (n : Int) := by
  have hdigits : ∀ c ∈ (toString n).toList, c.isDigit = true := fun c => isDigit_toString
  have htake := takeWhile_toString (n := n) hrest
  obtain ⟨d, ds, hds⟩ := List.exists_cons_of_ne_nil (toString_ne_nil n)
  obtain ⟨hblank, hminus, hplus⟩ := not_blank_of_isDigit (hdigits d (hds ▸ List.mem_cons_self))
  have hvalue := digitsValue_toString n
  rw [hds] at htake hvalue
  have hdrop : (d :: ds ++ rest).dropWhile isspace = d :: ds ++ rest :=
    List.dropWhile_cons_of_neg (by simp [hblank])
  have hsign : (match d :: ds ++ rest with
      | '-' :: tail => (true, tail)
      | '+' :: tail => (false, tail)
      | _ => (false, d :: ds ++ rest)) = (false, d :: ds ++ rest) := by
    rw [List.cons_append]
    split
    · rename_i heq
      exact absurd (List.cons.inj heq).1 hminus
    · rename_i heq
      exact absurd (List.cons.inj heq).1 hplus
    · rfl
  rw [hds, leadingInt]
  simp only [String.toList_ofList, hdrop, hsign, htake, hvalue]
  simp

theorem stoi_toString_append (h : n < 2 ^ 31) {rest : List Char}
    (hrest : ∀ c ∈ rest.head?, c.isDigit = false) :
    stoi (String.ofList ((toString n).toList ++ rest)) = some (n : Int) :=
  stoi_of_leadingInt (leadingInt_toString_append hrest) (by omega) (by omega)

theorem stoi_toString (h : n < 2 ^ 31) : stoi (toString n) = some (n : Int) := by
  have hread := stoi_toString_append h fun c (hc : c ∈ ([] : List Char).head?) => by cases hc
  rwa [List.append_nil, String.ofList_toList] at hread

theorem stoi_neg_toString (h : n ≤ 2 ^ 31) : stoi ("-" ++ toString n) = some (-n : Int) := by
  have htake := takeWhile_toString (n := n) fun c (hc : c ∈ ([] : List Char).head?) => by cases hc
  rw [List.append_nil] at htake
  have hdrop : ("-" ++ toString n).toList.dropWhile isspace = '-' :: (toString n).toList := by
    rw [String.toList_append]
    exact List.dropWhile_cons_of_neg (by decide)
  refine stoi_of_leadingInt ?_ (by omega) (by omega)
  rw [leadingInt]
  simp only [hdrop, htake, digitsValue_toString]
  rw [if_neg (by simp)]
  rfl

theorem stoi_toString_int {i : Int} (hlow : -2 ^ 31 ≤ i) (hhigh : i < 2 ^ 31) :
    stoi (toString i) = some i := by
  cases i with
  | ofNat n => exact stoi_toString (by simpa using hhigh)
  | negSucc n =>
    have hneg := stoi_neg_toString (n := n + 1) (by omega)
    exact hneg

end ToString

/-- `std::stoull`, read like `stoi`; a negative number is wrapped around. `none`
stands for the same exceptions. -/
def stoull (s : String) : Option UInt64 :=
  let text := s.toList.dropWhile isspace
  let (negative, text) := match text with
    | '-' :: tail => (true, tail)
    | '+' :: tail => (false, tail)
    | _ => (false, text)
  let ds := text.takeWhile Char.isDigit
  let n := digitsValue ds
  if ds.isEmpty || 2 ^ 64 ≤ n then none
  else some (if negative then -UInt64.ofNat n else UInt64.ofNat n)

/-- A result of `int` arithmetic. An overflow is undefined in C++; compiled code
wraps around. -/
def wrapInt (n : Int) : Int := n.bmod (2 ^ 32)

theorem wrapInt_of_lt {n : Int} (h : 0 ≤ n) (hn : n < 2 ^ 31) : wrapInt n = n := by
  rw [wrapInt, Int.bmod_def]
  omega

theorem wrapInt_overflow {n : Int} (h : 2 ^ 31 ≤ n) (hn : n < 2 ^ 32) : wrapInt n < 0 := by
  rw [wrapInt, Int.bmod_def]
  omega

/-- `text.find(part) != std::string::npos`. -/
def contains (part text : String) : Bool := decide (part.toList <:+: text.toList)

/-- `text.find(part) == 0`. -/
def startsWith (part text : String) : Bool := part.toList.isPrefixOf text.toList

/-- What `c_str()` is as a C string: it ends at the first NUL. -/
def cString (text : List Char) : List Char := text.takeWhile (· ≠ '\x00')

/-- `strstr`: the text from the first occurrence of the pattern on. -/
def strstr (text pattern : List Char) : Option (List Char) :=
  match text with
  | [] => if pattern = [] then some [] else none
  | c :: rest => if pattern.isPrefixOf (c :: rest) then some (c :: rest) else strstr rest pattern

theorem isSome_strstr (text pattern : List Char) :
    (strstr text pattern).isSome = true ↔ pattern <:+: text := by
  induction text with
  | nil =>
    rw [strstr, List.infix_nil]
    split <;> simp [*]
  | cons c rest ih =>
    rw [strstr, List.infix_cons_iff, ← ih]
    by_cases hprefix : pattern <+: c :: rest
    · rw [if_pos (List.isPrefixOf_iff_prefix.mpr hprefix)]
      exact iff_of_true rfl (.inl hprefix)
    · rw [if_neg fun h => hprefix (List.isPrefixOf_iff_prefix.mp h), or_iff_right hprefix]

end WebrtcStreamer
