import Mathlib

/-! Bytes as base64 text: four characters for three bytes, with padding. -/

set_option autoImplicit false

namespace Base64

def alphabet : List Char :=
  (List.range 26).map (fun i => Char.ofNat ('A'.toNat + i)) ++
    (List.range 26).map (fun i => Char.ofNat ('a'.toNat + i)) ++
    (List.range 10).map (fun i => Char.ofNat ('0'.toNat + i)) ++ ['+', '/']

def digit (n : Nat) : Char := alphabet.getD n '='

def encode : List UInt8 → List Char
  | [] => []
  | [a] => [digit (a.toNat / 4), digit (a.toNat % 4 * 16), '=', '=']
  | [a, b] => [digit (a.toNat / 4), digit (a.toNat % 4 * 16 + b.toNat / 16),
      digit (b.toNat % 16 * 4), '=']
  | a :: b :: c :: rest => digit (a.toNat / 4) :: digit (a.toNat % 4 * 16 + b.toNat / 16) ::
      digit (b.toNat % 16 * 4 + c.toNat / 64) :: digit (c.toNat % 64) :: encode rest

def value (c : Char) : Option Nat := alphabet.idxOf? c

def group (w x y z : Nat) : List UInt8 :=
  [.ofNat (w * 4 + x / 16), .ofNat (x % 16 * 16 + y / 4), .ofNat (y % 4 * 64 + z)]

def decode : List Char → Option (List UInt8)
  | [] => some []
  | w :: x :: y :: z :: rest =>
    if z = '=' then
      if rest = [] then
        if y = '=' then do return (group (← value w) (← value x) 0 0).take 1
        else do return (group (← value w) (← value x) (← value y) 0).take 2
      else none
    else do return group (← value w) (← value x) (← value y) (← value z) ++ (← decode rest)
  | _ => none

theorem value_digit {n : Nat} (h : n < 64) : value (digit n) = some n := by
  revert n
  decide +kernel

theorem value_pad : value '=' = none := by decide +kernel

theorem digit_ne_pad {n : Nat} (h : n < 64) : digit n ≠ '=' := by
  intro hpad
  have hvalue := value_digit h
  rw [hpad, value_pad] at hvalue
  cases hvalue

theorem digit_mem (n : Nat) : digit n = '=' ∨ digit n ∈ alphabet := by
  rw [digit, List.getD_eq_getElem?_getD]
  cases hn : alphabet[n]? with
  | none => exact .inl rfl
  | some c => exact .inr (List.mem_of_getElem? hn)

theorem mem_encode {bytes : List UInt8} {c : Char} (h : c ∈ encode bytes) :
    c = '=' ∨ c ∈ alphabet := by
  induction bytes using encode.induct with
  | case1 => cases h
  | case2 a =>
    simp only [encode, List.mem_cons, List.not_mem_nil, or_false] at h
    rcases h with rfl | rfl | rfl | rfl <;> simp [digit_mem]
  | case3 a b =>
    simp only [encode, List.mem_cons, List.not_mem_nil, or_false] at h
    rcases h with rfl | rfl | rfl | rfl <;> simp [digit_mem]
  | case4 a b d rest ih =>
    simp only [encode, List.mem_cons] at h
    rcases h with rfl | rfl | rfl | rfl | hrest
    · exact digit_mem _
    · exact digit_mem _
    · exact digit_mem _
    · exact digit_mem _
    · exact ih hrest

theorem group_digits (a b c : UInt8) :
    group (a.toNat / 4) (a.toNat % 4 * 16 + b.toNat / 16) (b.toNat % 16 * 4 + c.toNat / 64)
      (c.toNat % 64) = [a, b, c] := by
  have hb := b.toNat_lt
  have hc := c.toNat_lt
  have ha' : a.toNat / 4 * 4 + (a.toNat % 4 * 16 + b.toNat / 16) / 16 = a.toNat := by omega
  have hb' : (a.toNat % 4 * 16 + b.toNat / 16) % 16 * 16 +
      (b.toNat % 16 * 4 + c.toNat / 64) / 4 = b.toNat := by omega
  have hc' : (b.toNat % 16 * 4 + c.toNat / 64) % 4 * 64 + c.toNat % 64 = c.toNat := by omega
  rw [group, ha', hb', hc']
  simp

theorem decode_encode (bytes : List UInt8) : decode (encode bytes) = some bytes := by
  induction bytes using encode.induct with
  | case1 => rfl
  | case2 a =>
    have ha := a.toNat_lt
    have hgroup := group_digits a 0 0
    simp only [UInt8.toNat_zero, Nat.zero_div, Nat.zero_mod, Nat.zero_mul, Nat.add_zero] at hgroup
    rw [encode, decode, if_pos rfl, if_pos rfl, if_pos rfl, value_digit (by omega),
      value_digit (by omega)]
    simp [hgroup]
  | case3 a b =>
    have ha := a.toNat_lt
    have hb := b.toNat_lt
    have hgroup := group_digits a b 0
    simp only [UInt8.toNat_zero, Nat.zero_div, Nat.zero_mod, Nat.add_zero] at hgroup
    rw [encode, decode, if_pos rfl, if_pos rfl, if_neg (digit_ne_pad (by omega)),
      value_digit (by omega), value_digit (by omega), value_digit (by omega)]
    simp [hgroup]
  | case4 a b c rest ih =>
    have ha := a.toNat_lt
    have hb := b.toNat_lt
    have hc := c.toNat_lt
    rw [encode, decode, if_neg (digit_ne_pad (by omega)), value_digit (by omega),
      value_digit (by omega), value_digit (by omega), value_digit (by omega), ih]
    simp [group_digits]

end Base64
