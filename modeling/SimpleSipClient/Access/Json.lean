import SimpleSipClient.Access.Source
import SimpleSipClient.Foundation.Unicode

/-! # Texts of JSON objects

The grammar of a JSON object as a text message carries it, with what each text means. The
client turns the text into Latin-1 and has the bytes parsed as UTF-8: only the stretches of
plain characters in strings can change by that, so what the parser sees is again the text
of an object, with the same marks and escapes.
-/

namespace SimpleSipClient.Access

open Foundation SMS

/-! ## Syntax -/

def IsUnescaped (c : Char) : Prop := 0x20 ≤ c.toNat ∧ c ≠ '"' ∧ c ≠ '\\'

instance (c : Char) : Decidable (IsUnescaped c) := inferInstanceAs (Decidable (_ ∧ _ ∧ _))

def Unescaped (cs : List Char) : Prop := ∀ c ∈ cs, IsUnescaped c

instance (cs : List Char) : Decidable (Unescaped cs) := List.decidableBAll IsUnescaped cs

/-- Characters of a string that stand for themselves. -/
structure Stretch where
  chars : List Char
  unescaped : Unescaped chars

/-- What stands outside the strings: white space, punctuation, numbers and words. -/
structure Marks where
  chars : List Char
  ascii : Ascii chars
  unquoted : '"' ∉ chars

structure HexDigit where
  value : Fin 16
  upper : Bool

def HexDigit.char (d : HexDigit) : Char :=
  if d.upper then (Nat.digitChar d.value).toUpper else Nat.digitChar d.value

inductive Escape where
  | quote
  | backslash
  | slash
  | backspace
  | formFeed
  | lineFeed
  | carriageReturn
  | tab
  | unicode (a b c d : HexDigit)

/-- The characters behind the backslash. -/
def Escape.letters : Escape → List Char
  | .quote => ['"']
  | .backslash => ['\\']
  | .slash => ['/']
  | .backspace => ['b']
  | .formFeed => ['f']
  | .lineFeed => ['n']
  | .carriageReturn => ['r']
  | .tab => ['t']
  | .unicode a b c d => ['u', a.char, b.char, c.char, d.char]

def Escape.unit : Escape → UInt16
  | .quote => 0x22
  | .backslash => 0x5C
  | .slash => 0x2F
  | .backspace => 0x08
  | .formFeed => 0x0C
  | .lineFeed => 0x0A
  | .carriageReturn => 0x0D
  | .tab => 0x09
  | .unicode a b c d =>
      UInt16.ofNat (((a.value * 16 + b.value) * 16 + c.value) * 16 + d.value : Nat)

/-- A string between its quotes: escapes with stretches in front, between and behind. -/
structure Literal where
  first : Stretch
  rest : List (Escape × Stretch)

def escaped : List (Escape × Stretch) → List Char
  | [] => ['"']
  | (e, r) :: rest => '\\' :: (e.letters ++ (r.chars ++ escaped rest))

def Literal.chars (l : Literal) : List Char := '"' :: (l.first.chars ++ escaped l.rest)

inductive Token where
  | marks (m : Marks)
  | literal (l : Literal)

def Token.chars : Token → List Char
  | .marks m => m.chars
  | .literal l => l.chars

/-- The code takes no array, object or word for anything, so of these only the tokens
are kept. -/
inductive Value where
  | number (spelling : Marks)
  | string (l : Literal)
  | other (tokens : List Token)

def Value.chars : Value → List Char
  | .number m => m.chars
  | .string l => l.chars
  | .other ts => ts.flatMap Token.chars

structure Member where
  before : Marks
  key : Literal
  colon : Marks
  value : Value

def Member.chars (m : Member) : List Char :=
  m.before.chars ++ (m.key.chars ++ (m.colon.chars ++ m.value.chars))

structure JsonText where
  members : List Member
  closing : Marks

def JsonText.chars (t : JsonText) : List Char :=
  t.members.flatMap Member.chars ++ t.closing.chars

/-! ## Meaning -/

def escapedUnits (rest : List (Escape × Stretch)) : List UInt16 :=
  rest.flatMap fun p => p.1.unit :: utf16 p.2.chars

def Literal.units (l : Literal) : List UInt16 := utf16 l.first.chars ++ escapedUnits l.rest

section Meaning

variable (toInt : Marks → Int)

/-- `toInt` is what `QJsonValue` makes of a number. -/
def Value.json : Value → JsonValue
  | .number m => .number (toInt m)
  | .string l => .string l.units
  | .other _ => .other

def Member.hasKey (key : String) (m : Member) : Bool := m.key.units == utf16 key.toList

/-- Of several members with one key the last one counts. -/
def JsonText.last (t : JsonText) (key : String) : Option Value :=
  (t.members.reverse.find? (Member.hasKey key)).map Member.value

def JsonText.meaning (t : JsonText) : JsonDoc where
  parseError := false
  isObject := true
  object key := ((t.last key).map (Value.json toInt)).getD .other

end Meaning

/-! ## Stretches of a text -/

def Literal.stretches (l : Literal) : List Stretch := l.first :: l.rest.map Prod.snd

def Token.stretches : Token → List Stretch
  | .marks _ => []
  | .literal l => l.stretches

def Value.stretches : Value → List Stretch
  | .number _ => []
  | .string l => l.stretches
  | .other ts => ts.flatMap Token.stretches

def Member.stretches (m : Member) : List Stretch := m.key.stretches ++ m.value.stretches

def JsonText.stretches (t : JsonText) : List Stretch := t.members.flatMap Member.stretches

/-- The Latin-1 form of the stretch is well-formed UTF-8. -/
def Stretch.Decodable (r : Stretch) : Prop := WellFormed (latin1 (utf16 r.chars))

/-! ## Reading the Latin-1 form -/

theorem Stretch.reread_unescaped (r : Stretch) :
    Unescaped ((decodeUtf8 (latin1 (utf16 r.chars))).getD r.chars) := by
  intro c hc
  cases hdec : decodeUtf8 (latin1 (utf16 r.chars)) with
  | none =>
      rw [hdec] at hc
      exact r.unescaped c hc
  | some cs =>
      rw [hdec] at hc
      have hreads : ReadsAs r.chars cs := decodeUtf8_eq_some.mp hdec
      by_cases hascii : IsAscii c
      · rcases hreads.mem hc hascii with rfl | hold
        · decide
        · exact r.unescaped c hold
      · refine ⟨Nat.le_trans (by decide) (Nat.le_of_not_lt hascii), ?_, ?_⟩
        · rintro rfl
          exact hascii (by decide)
        · rintro rfl
          exact hascii (by decide)

/-- The stretch as the parser finds it. -/
def Stretch.reread (r : Stretch) : Stretch where
  chars := (decodeUtf8 (latin1 (utf16 r.chars))).getD r.chars
  unescaped := r.reread_unescaped

def Literal.reread (l : Literal) : Literal where
  first := l.first.reread
  rest := l.rest.map fun p => (p.1, p.2.reread)

def Token.reread : Token → Token
  | .marks m => .marks m
  | .literal l => .literal l.reread

def Value.reread : Value → Value
  | .number m => .number m
  | .string l => .string l.reread
  | .other ts => .other (ts.map Token.reread)

def Member.reread (m : Member) : Member := { m with key := m.key.reread, value := m.value.reread }

def JsonText.reread (t : JsonText) : JsonText := { t with members := t.members.map Member.reread }

theorem Stretch.readsAs {r : Stretch} (h : r.Decodable) : ReadsAs r.chars r.reread.chars := by
  rcases h with ⟨cs, hcs⟩
  have hchars : r.reread.chars = cs := by
    show (decodeUtf8 (latin1 (utf16 r.chars))).getD r.chars = cs
    rw [decodeUtf8_eq_some.mpr hcs]
    rfl
  rw [ReadsAs, hchars]
  exact hcs

theorem HexDigit.ascii (d : HexDigit) : IsAscii d.char := by
  have hall : ∀ (v : Fin 16) (u : Bool), IsAscii (HexDigit.char ⟨v, u⟩) := by decide
  exact hall d.value d.upper

theorem Escape.ascii (e : Escape) : Ascii e.letters := by
  cases e with
  | unicode a b c d =>
      intro x hx
      simp only [Escape.letters, List.mem_cons, List.not_mem_nil, or_false] at hx
      rcases hx with rfl | rfl | rfl | rfl | rfl
      · decide
      · exact a.ascii
      · exact b.ascii
      · exact c.ascii
      · exact d.ascii
  | _ => simp only [Escape.letters]; decide

theorem ascii_quote : Ascii ['"'] := by decide

theorem ascii_backslash : Ascii ['\\'] := by decide

/-- A stretch always ends at an ASCII character. -/
theorem escaped_head (rest : List (Escape × Stretch)) :
    ∃ c cs, escaped rest = c :: cs ∧ IsAscii c := by
  cases rest with
  | nil => exact ⟨'"', [], rfl, by decide⟩
  | cons p rest => exact ⟨'\\', _, rfl, by decide⟩

theorem escaped_readsAs {rest : List (Escape × Stretch)} (h : ∀ p ∈ rest, p.2.Decodable) :
    ReadsAs (escaped rest) (escaped (rest.map fun p => (p.1, p.2.reread))) := by
  induction rest with
  | nil => exact readsAs_ascii ascii_quote
  | cons p rest ih =>
      rcases List.forall_mem_cons.mp h with ⟨hp, hrest⟩
      have hbackslash : ReadsAs ['\\'] ['\\'] := readsAs_ascii ascii_backslash
      have hletters := readsAs_ascii p.1.ascii
      exact hbackslash.append (hletters.append ((Stretch.readsAs hp).append (ih hrest)))

theorem Literal.readsAs {l : Literal} (h : ∀ r ∈ l.stretches, r.Decodable) :
    ReadsAs l.chars l.reread.chars := by
  rcases List.forall_mem_cons.mp h with ⟨hfirst, hrest⟩
  have hquote : ReadsAs ['"'] ['"'] := readsAs_ascii ascii_quote
  have htail := escaped_readsAs fun p hp => hrest p.2 (List.mem_map_of_mem hp)
  exact hquote.append ((Stretch.readsAs hfirst).append htail)

theorem Token.readsAs {t : Token} (h : ∀ r ∈ t.stretches, r.Decodable) :
    ReadsAs t.chars t.reread.chars := by
  cases t with
  | marks m => exact readsAs_ascii m.ascii
  | literal l => exact Literal.readsAs h

theorem Value.readsAs {v : Value} (h : ∀ r ∈ v.stretches, r.Decodable) :
    ReadsAs v.chars v.reread.chars := by
  cases v with
  | number m => exact readsAs_ascii m.ascii
  | string l => exact Literal.readsAs h
  | other ts =>
      refine readsAs_flatMap fun t ht => Token.readsAs fun r hr => h r ?_
      exact List.mem_flatMap.mpr ⟨t, ht, hr⟩

theorem Member.readsAs {m : Member} (h : ∀ r ∈ m.stretches, r.Decodable) :
    ReadsAs m.chars m.reread.chars := by
  rcases List.forall_mem_append.mp h with ⟨hkey, hvalue⟩
  have hbefore := readsAs_ascii m.before.ascii
  have hcolon := readsAs_ascii m.colon.ascii
  exact hbefore.append ((Literal.readsAs hkey).append (hcolon.append (Value.readsAs hvalue)))

/-- What the parser sees of a text is the reread text. -/
theorem JsonText.readsAs {t : JsonText} (h : ∀ r ∈ t.stretches, r.Decodable) :
    ReadsAs t.chars t.reread.chars := by
  have hmembers : ReadsAs (t.members.flatMap Member.chars)
      ((t.members.map Member.reread).flatMap Member.chars) := by
    refine readsAs_flatMap fun m hm => Member.readsAs fun r hr => h r ?_
    exact List.mem_flatMap.mpr ⟨m, hm, hr⟩
  exact hmembers.append (readsAs_ascii t.closing.ascii)

/-! ## Texts that can be read -/

theorem escaped_splits (rest : List (Escape × Stretch)) :
    Splits (escaped rest) (∀ p ∈ rest, p.2.Decodable) := by
  induction rest with
  | nil => exact (splits_ascii ascii_quote).congr (by simp)
  | cons p rest ih =>
      rcases escaped_head rest with ⟨c, cs, hcs, hc⟩
      rw [hcs] at ih
      have hescape : Ascii ('\\' :: p.1.letters) := ascii_cons.mpr ⟨by decide, p.1.ascii⟩
      have hall := (splits_ascii hescape).append (ih.run hc p.2.chars)
      rw [← hcs] at hall
      exact hall.congr (by rw [true_and, List.forall_mem_cons, Stretch.Decodable])

theorem Literal.splits (l : Literal) : Splits l.chars (∀ r ∈ l.stretches, r.Decodable) := by
  rcases escaped_head l.rest with ⟨c, cs, hcs, hc⟩
  have hrest := escaped_splits l.rest
  rw [hcs] at hrest
  have hall := (splits_ascii ascii_quote).append (hrest.run hc l.first.chars)
  rw [← hcs] at hall
  refine hall.congr ?_
  rw [true_and, Literal.stretches, List.forall_mem_cons, List.forall_mem_map]
  exact Iff.rfl

theorem Token.splits (t : Token) : Splits t.chars (∀ r ∈ t.stretches, r.Decodable) := by
  cases t with
  | marks m => exact (splits_ascii m.ascii).congr (by simp [Token.stretches])
  | literal l => exact l.splits

theorem Value.splits (v : Value) : Splits v.chars (∀ r ∈ v.stretches, r.Decodable) := by
  cases v with
  | number m => exact (splits_ascii m.ascii).congr (by simp [Value.stretches])
  | string l => exact l.splits
  | other ts => exact (splits_flatMap fun t _ => t.splits).congr List.forall_mem_flatMap.symm

theorem Member.splits (m : Member) : Splits m.chars (∀ r ∈ m.stretches, r.Decodable) := by
  have hbefore := splits_ascii m.before.ascii
  have hcolon := splits_ascii m.colon.ascii
  have hall := hbefore.append (m.key.splits.append (hcolon.append m.value.splits))
  refine hall.congr ?_
  rw [true_and, true_and, Member.stretches, List.forall_mem_append]

/-- The parser is given UTF-8 exactly when every stretch of the text can be read. -/
theorem JsonText.wellFormed_iff (t : JsonText) :
    WellFormed (latin1 (utf16 t.chars)) ↔ ∀ r ∈ t.stretches, r.Decodable := by
  have hmembers : Splits (t.members.flatMap Member.chars) (∀ r ∈ t.stretches, r.Decodable) :=
    (splits_flatMap fun m _ => m.splits).congr List.forall_mem_flatMap.symm
  have hall := (hmembers.append (splits_ascii t.closing.ascii)) []
  rw [List.append_nil, and_true] at hall
  exact hall.trans (and_iff_left (wellFormed_utf8 []))

/-! ## Strings that are read as they are -/

theorem append_eq_iff_of_length_le {α : Type} {a b c d : List α} (hab : a.length ≤ b.length)
    (hcd : c.length ≤ d.length) : a ++ c = b ++ d ↔ a = b ∧ c = d := by
  constructor
  · intro h
    have hlen := congrArg List.length h
    rw [List.length_append, List.length_append] at hlen
    exact List.append_inj h (by omega)
  · rintro ⟨rfl, rfl⟩
    rfl

theorem Stretch.units_length_le {r : Stretch} (h : r.Decodable) :
    (utf16 r.reread.chars).length ≤ (utf16 r.chars).length :=
  (Stretch.readsAs h).length_le

theorem escapedUnits_length_le {rest : List (Escape × Stretch)} (h : ∀ p ∈ rest, p.2.Decodable) :
    (escapedUnits (rest.map fun p => (p.1, p.2.reread))).length ≤ (escapedUnits rest).length := by
  induction rest with
  | nil => exact Nat.le_refl _
  | cons p rest ih =>
      rcases List.forall_mem_cons.mp h with ⟨hp, hrest⟩
      have hlength := Stretch.units_length_le hp
      have hlater := ih hrest
      simp only [escapedUnits, List.map_cons, List.flatMap_cons, List.length_append,
        List.length_cons] at hlater ⊢
      omega

theorem escapedUnits_reread_iff {rest : List (Escape × Stretch)} (h : ∀ p ∈ rest, p.2.Decodable) :
    escapedUnits (rest.map fun p => (p.1, p.2.reread)) = escapedUnits rest ↔
      ∀ p ∈ rest, Ascii p.2.chars := by
  induction rest with
  | nil => simp [escapedUnits]
  | cons p rest ih =>
      rcases List.forall_mem_cons.mp h with ⟨hp, hrest⟩
      have hlater : (escapedUnits (rest.map fun p => (p.1, p.2.reread))).length ≤
          (escapedUnits rest).length := escapedUnits_length_le hrest
      rw [escapedUnits, escapedUnits, List.map_cons, List.flatMap_cons, List.flatMap_cons,
        ← escapedUnits, ← escapedUnits, List.cons_append, List.cons_append, List.cons.injEq,
        and_iff_right rfl, append_eq_iff_of_length_le (Stretch.units_length_le hp) hlater,
        (Stretch.readsAs hp).utf16_eq_iff, ih hrest, List.forall_mem_cons]

/-- A string keeps its value only if all its stretches are ASCII. -/
theorem Literal.units_reread_iff {l : Literal} (h : ∀ r ∈ l.stretches, r.Decodable) :
    l.reread.units = l.units ↔ ∀ r ∈ l.stretches, Ascii r.chars := by
  rcases List.forall_mem_cons.mp h with ⟨hfirst, hrest⟩
  rw [List.forall_mem_map] at hrest
  rw [Literal.units, Literal.units, Literal.reread,
    append_eq_iff_of_length_le (Stretch.units_length_le hfirst) (escapedUnits_length_le hrest),
    (Stretch.readsAs hfirst).utf16_eq_iff, escapedUnits_reread_iff hrest, Literal.stretches,
    List.forall_mem_cons, List.forall_mem_map]

theorem Stretch.reread_of_ascii {r : Stretch} (h : Ascii r.chars) : r.reread = r := by
  have hdec : decodeUtf8 (latin1 (utf16 r.chars)) = some r.chars := by
    rw [latin1_ascii h]
    exact decodeUtf8_utf8 r.chars
  have hchars : r.reread.chars = r.chars := by
    show (decodeUtf8 (latin1 (utf16 r.chars))).getD r.chars = r.chars
    rw [hdec]
    rfl
  cases hr : r.reread with
  | mk chars unescaped =>
      rw [hr] at hchars
      cases r
      cases hchars
      rfl

theorem Stretch.reread_of_not_ascii {r : Stretch} (h : ¬ Ascii r.chars) :
    '?' ∈ r.reread.chars ∨ ¬ Ascii r.reread.chars := by
  by_cases hdec : r.Decodable
  · exact (Stretch.readsAs hdec).not_ascii h
  · have hnone : decodeUtf8 (latin1 (utf16 r.chars)) = none := by
      cases hd : decodeUtf8 (latin1 (utf16 r.chars)) with
      | none => rfl
      | some cs => exact absurd ⟨cs, decodeUtf8_eq_some.mp hd⟩ hdec
    have hchars : r.reread.chars = r.chars := by
      show (decodeUtf8 (latin1 (utf16 r.chars))).getD r.chars = r.chars
      rw [hnone]
      rfl
    rw [hchars]
    exact .inr h

theorem Literal.reread_of_ascii {l : Literal} (h : ∀ r ∈ l.stretches, Ascii r.chars) :
    l.reread = l := by
  rcases List.forall_mem_cons.mp h with ⟨hfirst, hrest⟩
  rw [List.forall_mem_map] at hrest
  have hmap : (l.rest.map fun p => (p.1, p.2.reread)) = l.rest := by
    refine (List.map_congr_left fun p hp => ?_).trans (List.map_id _)
    rw [Stretch.reread_of_ascii (hrest p hp)]
    rfl
  rw [Literal.reread, Stretch.reread_of_ascii hfirst, hmap]

theorem Literal.mem_units {l : Literal} {r : Stretch} (hr : r ∈ l.stretches) {u : UInt16}
    (hu : u ∈ utf16 r.chars) : u ∈ l.units := by
  rcases List.mem_cons.mp hr with rfl | hr
  · exact List.mem_append_left _ hu
  · rcases List.mem_map.mp hr with ⟨p, hp, rfl⟩
    refine List.mem_append_right _ (List.mem_flatMap.mpr ⟨p, hp, ?_⟩)
    exact List.mem_cons_of_mem _ hu

theorem Literal.mem_stretches_reread {l : Literal} {r : Stretch} (hr : r ∈ l.stretches) :
    r.reread ∈ l.reread.stretches := by
  rcases List.mem_cons.mp hr with rfl | hr
  · exact List.mem_cons_self
  · rcases List.mem_map.mp hr with ⟨p, hp, rfl⟩
    refine List.mem_cons_of_mem _ (List.mem_map.mpr ⟨(p.1, p.2.reread), ?_, rfl⟩)
    exact List.mem_map_of_mem (f := fun p => (p.1, p.2.reread)) hp

/-! ## What the parser finds under a key -/

/-- No unit of the key can come from a character that is not ASCII. -/
def PlainKey (key : String) : Prop := ∀ u ∈ utf16 key.toList, u.toNat < 128 ∧ u ≠ 63

instance (key : String) : Decidable (PlainKey key) :=
  List.decidableBAll (fun u : UInt16 => u.toNat < 128 ∧ u ≠ 63) (utf16 key.toList)

theorem Literal.reread_units_key {key : String} (hkey : PlainKey key) (l : Literal) :
    l.reread.units = utf16 key.toList ↔ l.units = utf16 key.toList := by
  by_cases hascii : ∀ r ∈ l.stretches, Ascii r.chars
  · rw [Literal.reread_of_ascii hascii]
  · simp only [not_forall] at hascii
    rcases hascii with ⟨r, hr, hnot⟩
    constructor
    · intro heq
      rcases Stretch.reread_of_not_ascii hnot with hmark | hnot'
      · have hunit : (63 : UInt16) ∈ utf16 r.reread.chars :=
          List.mem_flatMap.mpr ⟨'?', hmark, by decide⟩
        have hmem := Literal.mem_units (Literal.mem_stretches_reread hr) hunit
        exact absurd rfl (hkey 63 (heq ▸ hmem)).2
      · rcases exists_unit_of_not_ascii hnot' with ⟨u, hu, hge⟩
        have hmem := Literal.mem_units (Literal.mem_stretches_reread hr) hu
        have hlt := (hkey u (heq ▸ hmem)).1
        omega
    · intro heq
      rcases exists_unit_of_not_ascii hnot with ⟨u, hu, hge⟩
      have hlt := (hkey u (heq ▸ Literal.mem_units hr hu)).1
      omega

theorem Member.reread_hasKey {key : String} (hkey : PlainKey key) :
    Member.hasKey key ∘ Member.reread = Member.hasKey key := by
  funext m
  rw [Bool.eq_iff_iff]
  exact beq_iff_eq.trans ((m.key.reread_units_key hkey).trans beq_iff_eq.symm)

theorem JsonText.last_reread {key : String} (hkey : PlainKey key) (t : JsonText) :
    t.reread.last key = (t.last key).map Value.reread := by
  rw [JsonText.last, JsonText.last, JsonText.reread, ← List.map_reverse, List.find?_map,
    Member.reread_hasKey hkey, Option.map_map, Option.map_map]
  rfl

theorem JsonText.stretches_last {t : JsonText} {key : String} {v : Value}
    (h : t.last key = some v) : ∀ r ∈ v.stretches, r ∈ t.stretches := by
  intro r hr
  rcases Option.map_eq_some_iff.mp h with ⟨m, hm, rfl⟩
  have hmem : m ∈ t.members := List.mem_reverse.mp (List.mem_of_find?_eq_some hm)
  exact List.mem_flatMap.mpr ⟨m, hmem, List.mem_append_right _ hr⟩

section Meaning

variable (toInt : Marks → Int)

theorem JsonText.toInt_reread {key : String} (hkey : PlainKey key) (t : JsonText) :
    ((t.reread.meaning toInt).object key).toInt = ((t.meaning toInt).object key).toInt := by
  simp only [JsonText.meaning, JsonText.last_reread hkey]
  cases t.last key with
  | none => rfl
  | some v => cases v <;> rfl

/-- The text under the key is found as it was meant. -/
theorem JsonText.toString_reread_iff {key : String} (hkey : PlainKey key) {t : JsonText}
    (h : ∀ r ∈ t.stretches, r.Decodable) :
    ((t.reread.meaning toInt).object key).toString = ((t.meaning toInt).object key).toString ↔
      ∀ l, t.last key = some (.string l) → ∀ r ∈ l.stretches, Ascii r.chars := by
  simp only [JsonText.meaning, JsonText.last_reread hkey]
  cases hlast : t.last key with
  | none => simp
  | some v =>
      cases v with
      | number m => simp [Value.reread, Value.json, JsonValue.toString]
      | other ts => simp [Value.reread, Value.json, JsonValue.toString]
      | string l =>
          have hstretches : ∀ r ∈ l.stretches, r.Decodable :=
            fun r hr => h r (JsonText.stretches_last hlast r hr)
          simp only [Option.map_some, Option.getD_some, Value.reread, Value.json,
            JsonValue.toString, Literal.units_reread_iff hstretches, Option.some.injEq,
            Value.string.injEq, forall_eq']

end Meaning

end SimpleSipClient.Access
