import WebrtcStreamer.TextParts

/-! Responses that follow one another on an HTTP connection, with a body of
announced length, and a client that takes them apart. -/

set_option autoImplicit false

namespace HttpStream

open TextParts

/-! ### Bytes -/

abbrev Bytes := List UInt8

def utf8 (text : String) : Bytes := text.toList.flatMap String.utf8EncodeChar

/-- None if the bytes are not those of a text. -/
def readText (bytes : Bytes) : Option String := String.fromUTF8? bytes.toByteArray

def lf : UInt8 := 10

def cr : UInt8 := 13

def space : UInt8 := 32

def colon : UInt8 := 58

section Utf8

variable {text : String} {b : UInt8}

theorem utf8_append (text text' : String) : utf8 (text ++ text') = utf8 text ++ utf8 text' := by
  rw [utf8, String.toList_append, List.flatMap_append]
  rfl

theorem toByteArray_utf8 (text : String) : (utf8 text).toByteArray = text.toByteArray := by
  rw [← String.utf8Encode_toList]
  rfl

theorem length_utf8 (text : String) : (utf8 text).length = text.utf8ByteSize := by
  rw [String.utf8ByteSize, ← toByteArray_utf8, List.size_toByteArray]

theorem readText_utf8 (text : String) : readText (utf8 text) = some text := by
  rw [readText, toByteArray_utf8, String.fromUTF8?, dif_pos text.isValidUTF8]
  rfl

theorem toNat_of_mem_utf8EncodeChar (c : Char) :
    ∀ b ∈ String.utf8EncodeChar c, b.toNat < 128 → c.val.toNat = b.toNat := by
  simp only [String.utf8EncodeChar]
  split_ifs
  all_goals
    simp only [List.forall_mem_cons, List.not_mem_nil, false_implies, implies_true, and_true,
      UInt8.toNat_ofNat', Nat.reducePow]
    omega

/-- No part of a longer character is taken for an ASCII character. -/
theorem exists_of_mem_utf8 (h : b ∈ utf8 text) (hascii : b.toNat < 128) :
    ∃ c ∈ text.toList, c.val.toNat = b.toNat := by
  obtain ⟨c, hc, hb⟩ := List.mem_flatMap.mp h
  exact ⟨c, hc, toNat_of_mem_utf8EncodeChar c b hb hascii⟩

end Utf8

abbrev Field := Bytes × Bytes

structure Message where
  code : Nat
  reason : Bytes
  fields : List Field
  content : Bytes
  deriving DecidableEq, Repr

/-! ### Writing -/

def crlf : Bytes := [cr, lf]

def version : Bytes := utf8 "HTTP/1.1"

def renderField (field : Field) : Bytes := field.1 ++ [colon, space] ++ field.2 ++ crlf

def renderStatus (code : Nat) (reason : Bytes) : Bytes :=
  version ++ space :: utf8 (toString code) ++ space :: reason

def Message.render (m : Message) : Bytes :=
  renderStatus m.code m.reason ++ crlf ++ m.fields.flatMap renderField ++ crlf ++ m.content

/-! ### Reading -/

/-- A line ends at a line feed, with or without a carriage return. -/
def readLine (text : Bytes) : Option (Bytes × Bytes) :=
  (splitFirst lf text).map fun x => (if x.1.getLast? = some cr then x.1.dropLast else x.1, x.2)

def isBlank (b : UInt8) : Bool := b = 32 || b = 9

def trim (value : Bytes) : Bytes := (value.dropWhile isBlank).rdropWhile isBlank

def readField (line : Bytes) : Option Field :=
  (splitFirst colon line).map fun x => (x.1, trim x.2)

def readNat (bytes : Bytes) : Option Nat := (readText bytes).bind String.toNat?

def readStatus (line : Bytes) : Option (Nat × Bytes) := do
  let (text, line) ← splitFirst space line
  let (code, reason) ← splitFirst space line
  let code ← readNat code
  if text = version then some (code, reason) else none

/-- The fields up to the empty line. Every line has a byte, so the length of the text is
enough fuel. -/
def readFields : Nat → Bytes → Option (List Field × Bytes)
  | 0, _ => none
  | fuel + 1, text => do
    let (line, text) ← readLine text
    if line = [] then some ([], text)
    else
      let field ← readField line
      let (fields, text) ← readFields fuel text
      some (field :: fields, text)

def toLower (b : UInt8) : UInt8 := if 65 ≤ b && b ≤ 90 then b + 32 else b

def sameName (name name' : Bytes) : Bool := name.map toLower = name'.map toLower

/-- The announced length; none without an announcement, or with two that differ. -/
def contentLength (fields : List Field) : Option Nat :=
  match fields.filter fun field => sameName field.1 (utf8 "Content-Length") with
  | [] => none
  | field :: rest => if rest.all (·.2 = field.2) then readNat field.2 else none

/-- A response that ends with its fields, whatever they announce. -/
def bodyless (code : Nat) : Bool := code / 100 = 1 || code = 204 || code = 304

/-- One response, and what follows it on the connection. Transfer codings are not known. -/
def receive (text : Bytes) : Option (Message × Bytes) := do
  let (line, text) ← readLine text
  let (code, reason) ← readStatus line
  let (fields, text) ← readFields (text.length + 1) text
  if fields.any fun field => sameName field.1 (utf8 "Transfer-Encoding") then none
  else if bodyless code then some (⟨code, reason, fields, []⟩, text)
  else
    let length ← contentLength fields
    if length ≤ text.length then
      some (⟨code, reason, fields, text.take length⟩, text.drop length)
    else none

def receiveAll : Nat → Bytes → Option (List Message)
  | 0, _ => none
  | fuel + 1, text =>
    if text = [] then some []
    else do
      let (m, text) ← receive text
      let ms ← receiveAll fuel text
      some (m :: ms)

def receiveStream (text : Bytes) : Option (List Message) := receiveAll (text.length + 1) text

/-! ### What is written can be read -/

structure IsField (field : Field) : Prop where
  name_ne_nil : field.1 ≠ []
  name_colon : colon ∉ field.1
  name_line : lf ∉ field.1
  value_line : lf ∉ field.2
  value_trim : trim field.2 = field.2

structure Message.Framed (m : Message) : Prop where
  reason_line : lf ∉ m.reason
  fields : ∀ field ∈ m.fields, IsField field
  plain : ∀ field ∈ m.fields, sameName field.1 (utf8 "Transfer-Encoding") = false
  announced : contentLength m.fields = some m.content.length
  content : bodyless m.code = true → m.content = []

section Lines

variable {line rest : Bytes} {field : Field} {fields : List Field}

theorem readLine_append (h : lf ∉ line) :
    readLine (line ++ crlf ++ rest) = some (line, rest) := by
  have hcr : lf ≠ cr := by decide
  have hline : lf ∉ line ++ [cr] := by simpa [hcr] using h
  have htext : line ++ crlf ++ rest = (line ++ [cr]) ++ lf :: rest := by simp [crlf]
  rw [readLine, htext, splitFirst_append hline]
  simp

theorem trim_of_not_blank (h : ∀ b ∈ line, isBlank b = false) : trim line = line := by
  have hfront : line.dropWhile isBlank = line := by
    cases line with
    | nil => rfl
    | cons c line => exact List.dropWhile_cons_of_neg (by simp [h c List.mem_cons_self])
  rw [trim, hfront, List.rdropWhile_eq_self_iff]
  intro hne
  simp [h _ (List.getLast_mem hne)]

theorem readField_render (h : IsField field) :
    readField (field.1 ++ [colon, space] ++ field.2) = some field := by
  have hline : field.1 ++ [colon, space] ++ field.2 = field.1 ++ colon :: space :: field.2 := by
    simp
  rw [readField, hline, splitFirst_append h.name_colon, Option.map_some, trim,
    List.dropWhile_cons_of_pos (by decide), ← trim, h.value_trim]

theorem not_mem_toString {b : UInt8} (h : b.toNat < 48) (n : Nat) : b ∉ utf8 (toString n) := by
  intro hmem
  obtain ⟨c, hc, hval⟩ := exists_of_mem_utf8 hmem (by omega)
  have hdigit := Nat.isDigit_of_mem_toDigits (b := 10) (by decide) (by decide)
    (by simpa [Nat.repr] using hc)
  have hlow : 48 ≤ c.val.toNat := by
    simp only [Char.isDigit, Bool.and_eq_true, decide_eq_true_eq] at hdigit
    exact UInt32.le_iff_toNat_le.mp hdigit.1
  omega

theorem readNat_toString (n : Nat) : readNat (utf8 (toString n)) = some n := by
  rw [readNat, readText_utf8]
  exact Nat.toNat?_repr n

theorem readStatus_render (code : Nat) (reason : Bytes) :
    readStatus (renderStatus code reason) = some (code, reason) := by
  have hversion : space ∉ version := by decide
  have htext : renderStatus code reason =
      version ++ space :: (utf8 (toString code) ++ space :: reason) := by
    rw [renderStatus, List.append_assoc, List.cons_append]
  rw [readStatus, htext, splitFirst_append hversion, Option.bind_eq_bind, Option.bind_some]
  dsimp only
  rw [splitFirst_append (not_mem_toString (by decide) code), Option.bind_some]
  dsimp only
  rw [readNat_toString, Option.bind_eq_bind, Option.bind_some, if_pos rfl]

theorem renderStatus_line {code : Nat} {reason : Bytes} (h : lf ∉ reason) :
    lf ∉ renderStatus code reason := by
  have hversion : lf ∉ version := by decide
  rw [renderStatus, List.mem_append, List.mem_append, List.mem_cons, List.mem_cons]
  rintro ((hmem | hmem | hmem) | hmem | hmem)
  · exact hversion hmem
  · exact absurd hmem (by decide)
  · exact not_mem_toString (by decide) code hmem
  · exact absurd hmem (by decide)
  · exact h hmem

theorem renderField_line (h : IsField field) : lf ∉ field.1 ++ [colon, space] ++ field.2 := by
  have hseparator : lf ∉ [colon, space] := by decide
  simp only [List.mem_append, h.name_line, h.value_line, hseparator, or_false, not_false_eq_true]

/-- Induction on the fields; each takes one unit of fuel, and the empty line the last. -/
theorem readFields_render (h : ∀ field ∈ fields, IsField field) {fuel : Nat}
    (hfuel : fields.length < fuel) :
    readFields fuel (fields.flatMap renderField ++ crlf ++ rest) = some (fields, rest) := by
  induction fields generalizing fuel with
  | nil =>
    obtain ⟨fuel, rfl⟩ := Nat.exists_eq_add_of_lt hfuel
    have hline : readLine ([] ++ crlf ++ rest) = some ([], rest) :=
      readLine_append List.not_mem_nil
    rw [List.nil_append] at hline
    simp [readFields, hline]
  | cons field fields ih =>
    obtain ⟨fuel, rfl⟩ : ∃ n, fuel = n + 1 := ⟨fuel - 1, by simp at hfuel; omega⟩
    have hfield := h field List.mem_cons_self
    have htext : (field :: fields).flatMap renderField ++ crlf ++ rest =
        (field.1 ++ [colon, space] ++ field.2) ++ crlf ++
          (fields.flatMap renderField ++ crlf ++ rest) := by
      simp [renderField]
    have hne : field.1 ++ [colon, space] ++ field.2 ≠ [] := by simp
    rw [readFields, htext, readLine_append (renderField_line hfield), Option.bind_eq_bind,
      Option.bind_some]
    dsimp only
    rw [if_neg hne, readField_render hfield, Option.bind_eq_bind, Option.bind_some,
      ih (fun field hmem => h field (List.mem_cons_of_mem _ hmem)) (by simpa using hfuel)]
    rfl

end Lines

section Messages

variable {m : Message} {ms : List Message} {rest : Bytes}

theorem length_le_flatMap_renderField (fields : List Field) :
    fields.length ≤ (fields.flatMap renderField).length := by
  induction fields with
  | nil => exact Nat.zero_le _
  | cons field fields ih =>
    rw [List.flatMap_cons, List.length_append, List.length_cons, renderField, List.length_append,
      crlf]
    simp only [List.length_cons, List.length_nil]
    omega

theorem receive_render (h : m.Framed) (rest : Bytes) :
    receive (m.render ++ rest) = some (m, rest) := by
  have htext : m.render ++ rest = renderStatus m.code m.reason ++ crlf ++
      (m.fields.flatMap renderField ++ crlf ++ (m.content ++ rest)) := by
    simp only [Message.render, List.append_assoc]
  have hplain : (m.fields.any fun field => sameName field.1 (utf8 "Transfer-Encoding")) = false :=
    List.any_eq_false.mpr fun field hmem => Bool.eq_false_iff.mp (h.plain field hmem)
  have hfuel : m.fields.length <
      (m.fields.flatMap renderField ++ crlf ++ (m.content ++ rest)).length + 1 := by
    have hlength := length_le_flatMap_renderField m.fields
    rw [List.length_append, List.length_append]
    omega
  rw [receive, htext, readLine_append (renderStatus_line h.reason_line),
    Option.bind_eq_bind, Option.bind_some]
  dsimp only
  rw [readStatus_render, Option.bind_eq_bind, Option.bind_some]
  dsimp only
  rw [readFields_render h.fields hfuel, Option.bind_eq_bind, Option.bind_some]
  dsimp only
  rw [hplain, if_neg (by decide)]
  cases hcode : bodyless m.code with
  | true =>
    obtain ⟨code, reason, fields, content⟩ := m
    obtain rfl : content = [] := h.content hcode
    rfl
  | false =>
    rw [if_neg (by decide), h.announced, Option.bind_eq_bind, Option.bind_some,
      if_pos (by simp), List.take_left, List.drop_left]

theorem render_ne_nil (m : Message) : m.render ≠ [] := by
  simp [Message.render, crlf]

theorem length_le_flatMap_render (ms : List Message) :
    ms.length ≤ (ms.flatMap Message.render).length := by
  induction ms with
  | nil => exact Nat.zero_le _
  | cons m ms ih =>
    have hpos := List.length_pos_iff.mpr (render_ne_nil m)
    rw [List.flatMap_cons, List.length_append, List.length_cons]
    omega

theorem receiveAll_render (h : ∀ m ∈ ms, m.Framed) {fuel : Nat} (hfuel : ms.length < fuel) :
    receiveAll fuel (ms.flatMap Message.render) = some ms := by
  induction ms generalizing fuel with
  | nil =>
    obtain ⟨fuel, rfl⟩ := Nat.exists_eq_add_of_lt hfuel
    simp [receiveAll]
  | cons m ms ih =>
    obtain ⟨fuel, rfl⟩ : ∃ n, fuel = n + 1 := ⟨fuel - 1, by simp at hfuel; omega⟩
    have hne : m.render ++ ms.flatMap Message.render ≠ [] :=
      List.append_ne_nil_of_left_ne_nil (render_ne_nil m) _
    rw [receiveAll, List.flatMap_cons, if_neg hne, receive_render (h m List.mem_cons_self),
      Option.bind_eq_bind, Option.bind_some]
    dsimp only
    rw [ih (fun m hmem => h m (List.mem_cons_of_mem _ hmem)) (by simpa using hfuel)]
    rfl

theorem receiveStream_render (h : ∀ m ∈ ms, m.Framed) :
    receiveStream (ms.flatMap Message.render) = some ms :=
  receiveAll_render h (Nat.lt_succ_of_le (length_le_flatMap_render ms))

end Messages

end HttpStream
