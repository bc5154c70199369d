import Mathlib.Tactic.Common

/-! # Encodings of Unicode text

A text is a list of characters. UTF-8 stores an ASCII character as its code and any other
one in at least two bytes, none of them below 128; so an ASCII byte always begins a new
character. UTF-16 never needs more units than UTF-8 needs bytes, and Latin-1 stores one
byte for each unit. A text that comes back from Latin-1 as from UTF-8 is therefore ASCII.
-/

namespace Foundation

/-! ## Encodings -/

def IsAscii (c : Char) : Prop := c.toNat < 128

instance (c : Char) : Decidable (IsAscii c) := Nat.decLt c.toNat 128

def Ascii (cs : List Char) : Prop := ∀ c ∈ cs, IsAscii c

instance (cs : List Char) : Decidable (Ascii cs) := List.decidableBAll IsAscii cs

def utf8 (cs : List Char) : List UInt8 := cs.flatMap String.utf8EncodeChar

def utf16Char (c : Char) : List UInt16 :=
  if c.toNat < 0x10000 then [UInt16.ofNat c.toNat]
  else
    [UInt16.ofNat (0xD800 + (c.toNat - 0x10000) / 0x400),
      UInt16.ofNat (0xDC00 + (c.toNat - 0x10000) % 0x400)]

def utf16 (cs : List Char) : List UInt16 := cs.flatMap utf16Char

/-- A unit that has no Latin-1 code is stored as a question mark. -/
def latin1Unit (u : UInt16) : UInt8 := if u.toNat < 256 then UInt8.ofNat u.toNat else 63

def latin1 (us : List UInt16) : List UInt8 := us.map latin1Unit

def WellFormed (bs : List UInt8) : Prop := ∃ cs, utf8 cs = bs

def decodeUtf8 (bs : List UInt8) : Option (List Char) :=
  bs.toByteArray.utf8Decode?.map Array.toList

@[simp] theorem utf8_append (cs cs' : List Char) : utf8 (cs ++ cs') = utf8 cs ++ utf8 cs' :=
  List.flatMap_append

@[simp] theorem utf16_append (cs cs' : List Char) : utf16 (cs ++ cs') = utf16 cs ++ utf16 cs' :=
  List.flatMap_append

@[simp] theorem latin1_append (us us' : List UInt16) :
    latin1 (us ++ us') = latin1 us ++ latin1 us' :=
  List.map_append

theorem utf8_cons (c : Char) (cs : List Char) :
    utf8 (c :: cs) = String.utf8EncodeChar c ++ utf8 cs :=
  List.flatMap_cons

theorem utf16_cons (c : Char) (cs : List Char) : utf16 (c :: cs) = utf16Char c ++ utf16 cs :=
  List.flatMap_cons

theorem latin1_length (us : List UInt16) : (latin1 us).length = us.length := List.length_map _

theorem ascii_cons {c : Char} {cs : List Char} : Ascii (c :: cs) ↔ IsAscii c ∧ Ascii cs :=
  List.forall_mem_cons

/-! ## Single characters -/

theorem IsAscii.lt {c : Char} (h : IsAscii c) {n : Nat} (hn : 128 ≤ n) : c.toNat < n :=
  Nat.lt_of_lt_of_le h hn

theorem IsAscii.byte {c : Char} (h : IsAscii c) : (UInt8.ofNat c.toNat).toNat = c.toNat :=
  Nat.mod_eq_of_lt (h.lt (by decide))

theorem IsAscii.unit {c : Char} (h : IsAscii c) : (UInt16.ofNat c.toNat).toNat = c.toNat :=
  Nat.mod_eq_of_lt (h.lt (by decide))

theorem utf8_of_ascii {c : Char} (h : IsAscii c) :
    String.utf8EncodeChar c = [UInt8.ofNat c.toNat] := by
  have hle : c.val.toNat ≤ 0x7f := Nat.le_of_lt_succ h
  rw [String.utf8EncodeChar]
  simp only [hle, if_true]
  rfl

/-- All bytes of another character are continuation or leading bytes. -/
theorem utf8_of_not_ascii {c : Char} (h : ¬ IsAscii c) :
    2 ≤ (String.utf8EncodeChar c).length ∧ ∀ b ∈ String.utf8EncodeChar c, 128 ≤ b.toNat := by
  have hlt : ¬ c.val.toNat ≤ 0x7f := fun hle => h (Nat.lt_succ_of_le hle)
  rw [String.utf8EncodeChar]
  simp only [hlt, if_false]
  split
  · simp
    omega
  split
  · simp
    omega
  · simp
    omega

theorem utf16_of_ascii {c : Char} (h : IsAscii c) : utf16Char c = [UInt16.ofNat c.toNat] :=
  if_pos (h.lt (by decide))

theorem utf16_of_not_ascii {c : Char} (h : ¬ IsAscii c) : ∀ u ∈ utf16Char c, 128 ≤ u.toNat := by
  have hle : 128 ≤ c.toNat := Nat.le_of_not_lt h
  have hmax : c.toNat < 0x110000 := by
    rcases c.valid with hlow | ⟨_, hhigh⟩
    · exact Nat.lt_trans hlow (by decide)
    · exact hhigh
  rw [utf16Char]
  split
  · simp
    omega
  · simp
    omega

theorem utf16Char_length_lt {c : Char} (h : ¬ IsAscii c) :
    (utf16Char c).length < (String.utf8EncodeChar c).length := by
  by_cases hbmp : c.toNat < 0x10000
  · have htwo := (utf8_of_not_ascii h).1
    rw [utf16Char, if_pos hbmp]
    exact htwo
  · have hsize : c.utf8Size = 4 :=
      Char.utf8Size_eq_four_iff.mpr (UInt32.lt_iff_toNat_lt.mpr (Nat.le_of_not_lt hbmp))
    rw [utf16Char, if_neg hbmp, String.length_utf8EncodeChar, hsize]
    simp

/-- An ASCII byte of an encoding is an ASCII character of the text. -/
theorem char_of_mem_utf8 {cs : List Char} {b : UInt8} (hb : b ∈ utf8 cs) (hlt : b.toNat < 128) :
    Char.ofNat b.toNat ∈ cs := by
  rcases List.mem_flatMap.mp hb with ⟨c, hc, hbc⟩
  by_cases hascii : IsAscii c
  · rw [utf8_of_ascii hascii, List.mem_singleton] at hbc
    have hcode : b.toNat = c.toNat := by rw [hbc, hascii.byte]
    rw [hcode, Char.ofNat_toNat]
    exact hc
  · have hge := (utf8_of_not_ascii hascii).2 b hbc
    omega

/-- Any other byte is part of a character that is not ASCII. -/
theorem not_ascii_of_mem_utf8 {cs : List Char} {b : UInt8} (hb : b ∈ utf8 cs)
    (hge : 128 ≤ b.toNat) : ¬ Ascii cs := by
  intro hascii
  rcases List.mem_flatMap.mp hb with ⟨c, hc, hbc⟩
  rw [utf8_of_ascii (hascii c hc), List.mem_singleton] at hbc
  have hcode : b.toNat = c.toNat := by rw [hbc, (hascii c hc).byte]
  have hlt : c.toNat < 128 := hascii c hc
  omega

/-! ## ASCII texts -/

theorem latin1_ascii {cs : List Char} (h : Ascii cs) : latin1 (utf16 cs) = utf8 cs := by
  induction cs with
  | nil => rfl
  | cons c cs ih =>
      rcases ascii_cons.mp h with ⟨hc, hcs⟩
      have hsmall : c.toNat < 256 := hc.lt (by decide)
      rw [utf16_cons, utf8_cons, latin1_append, ih hcs, utf16_of_ascii hc, utf8_of_ascii hc]
      simp only [latin1, List.map_cons, List.map_nil, latin1Unit, hc.unit, if_pos hsmall]

theorem utf16_length_le (cs : List Char) : (utf16 cs).length ≤ (utf8 cs).length := by
  induction cs with
  | nil => exact Nat.le_refl _
  | cons c cs ih =>
      have hc : (utf16Char c).length ≤ (String.utf8EncodeChar c).length := by
        by_cases hascii : IsAscii c
        · rw [utf16_of_ascii hascii, utf8_of_ascii hascii]
          exact Nat.le_refl _
        · exact Nat.le_of_lt (utf16Char_length_lt hascii)
      rw [utf16_cons, utf8_cons, List.length_append, List.length_append]
      exact Nat.add_le_add hc ih

/-- Only ASCII texts have as many units as bytes. -/
theorem ascii_of_length {cs : List Char} (h : (utf16 cs).length = (utf8 cs).length) :
    Ascii cs := by
  induction cs with
  | nil => exact fun c hc => absurd hc List.not_mem_nil
  | cons c cs ih =>
      have hle := utf16_length_le cs
      rw [utf16_cons, utf8_cons, List.length_append, List.length_append] at h
      by_cases hc : IsAscii c
      · rw [utf16_of_ascii hc, utf8_of_ascii hc, List.length_singleton,
          List.length_singleton] at h
        exact ascii_cons.mpr ⟨hc, ih (Nat.add_left_cancel h)⟩
      · have hlt := utf16Char_length_lt hc
        omega

theorem latin1_eq_utf8_iff (cs : List Char) : latin1 (utf16 cs) = utf8 cs ↔ Ascii cs := by
  constructor
  · intro h
    have hlen := congrArg List.length h
    rw [latin1_length] at hlen
    exact ascii_of_length hlen
  · exact latin1_ascii

/-! ## Decoding -/

theorem utf8_injective {cs cs' : List Char} (h : utf8 cs = utf8 cs') : cs = cs' := by
  have hbytes : cs.utf8Encode = cs'.utf8Encode := congrArg List.toByteArray h
  have hdecode := congrArg ByteArray.utf8Decode? hbytes
  rw [List.utf8Decode?_utf8Encode, List.utf8Decode?_utf8Encode] at hdecode
  simpa using hdecode

theorem decodeUtf8_utf8 (cs : List Char) : decodeUtf8 (utf8 cs) = some cs := by
  have h : (utf8 cs).toByteArray.utf8Decode? = some cs.toArray := List.utf8Decode?_utf8Encode
  rw [decodeUtf8, h]
  rfl

/-- Decoding finds the text behind well-formed bytes, and nothing behind others. -/
theorem decodeUtf8_eq_some {bs : List UInt8} {cs : List Char} :
    decodeUtf8 bs = some cs ↔ utf8 cs = bs := by
  constructor
  · intro h
    rcases Option.map_eq_some_iff.mp h with ⟨a, ha, rfl⟩
    have hsome : bs.toByteArray.utf8Decode?.isSome := by simp [ha]
    have hencode : (bs.toByteArray.utf8Decode?.get hsome).toList.utf8Encode = bs.toByteArray :=
      ByteArray.utf8Encode_get_utf8Decode?
    have hget : bs.toByteArray.utf8Decode?.get hsome = a := by simp [ha]
    rw [hget] at hencode
    have hlists := congrArg (fun b : ByteArray => b.data.toList) hencode
    simpa [List.utf8Encode, utf8] using hlists
  · rintro rfl
    exact decodeUtf8_utf8 cs

/-! ## Reading Latin-1 as UTF-8 -/

/-- The Latin-1 form of `cs`, read as UTF-8, is `cs'`. -/
def ReadsAs (cs cs' : List Char) : Prop := utf8 cs' = latin1 (utf16 cs)

theorem ReadsAs.append {cs cs' ds ds' : List Char} (h : ReadsAs cs ds) (h' : ReadsAs cs' ds') :
    ReadsAs (cs ++ cs') (ds ++ ds') := by
  rw [ReadsAs, utf8_append, utf16_append, latin1_append, h, h']

theorem readsAs_ascii {cs : List Char} (h : Ascii cs) : ReadsAs cs cs := (latin1_ascii h).symm

theorem readsAs_flatMap {α : Type} {f : α → List Char} {g : α → α} {xs : List α}
    (h : ∀ x ∈ xs, ReadsAs (f x) (f (g x))) :
    ReadsAs (xs.flatMap f) ((xs.map g).flatMap f) := by
  induction xs with
  | nil => rfl
  | cons x xs ih =>
      rcases List.forall_mem_cons.mp h with ⟨hx, hxs⟩
      exact hx.append (ih hxs)

theorem utf16_ascii_lt {cs : List Char} (h : Ascii cs) {u : UInt16} (hu : u ∈ utf16 cs) :
    u.toNat < 128 := by
  rcases List.mem_flatMap.mp hu with ⟨c, hc, huc⟩
  rw [utf16_of_ascii (h c hc), List.mem_singleton] at huc
  rw [huc, (h c hc).unit]
  exact h c hc

/-- A text with a character that is not ASCII has a unit that is not. -/
theorem exists_unit_of_not_ascii {cs : List Char} (h : ¬ Ascii cs) :
    ∃ u ∈ utf16 cs, 128 ≤ u.toNat := by
  simp only [Ascii, not_forall] at h
  rcases h with ⟨c, hc, hascii⟩
  have hne : utf16Char c ≠ [] := by
    rw [utf16Char]
    split <;> simp
  rcases List.exists_mem_of_ne_nil _ hne with ⟨u, hu⟩
  exact ⟨u, List.mem_flatMap.mpr ⟨c, hc, hu⟩, utf16_of_not_ascii hascii u hu⟩

/-- An ASCII character that is read was there before, or replaces another. -/
theorem ReadsAs.mem {cs cs' : List Char} (h : ReadsAs cs cs') {c : Char} (hc : c ∈ cs')
    (hascii : IsAscii c) : c = '?' ∨ c ∈ cs := by
  have hbyte : UInt8.ofNat c.toNat ∈ latin1 (utf16 cs) := by
    rw [← h]
    refine List.mem_flatMap.mpr ⟨c, hc, ?_⟩
    rw [utf8_of_ascii hascii]
    exact List.mem_singleton_self _
  rcases List.mem_map.mp hbyte with ⟨u, hu, hub⟩
  have hb := congrArg UInt8.toNat hub
  rw [hascii.byte, latin1Unit] at hb
  split at hb
  · case isTrue hlt =>
      rcases List.mem_flatMap.mp hu with ⟨d, hd, hud⟩
      have hcu : u.toNat = c.toNat := (Nat.mod_eq_of_lt hlt).symm.trans hb
      have hc128 : c.toNat < 128 := hascii
      have hdascii : IsAscii d := by
        by_contra hnot
        have hge := utf16_of_not_ascii hnot u hud
        omega
      rw [utf16_of_ascii hdascii, List.mem_singleton] at hud
      have hud' : u.toNat = d.toNat := by rw [hud, hdascii.unit]
      have hcd : c = d := Char.toNat_inj.mp (hcu.symm.trans hud')
      exact .inr (hcd ▸ hd)
  · exact .inl (Char.toNat_inj.mp hb.symm)

/-- What replaces a character that is not ASCII is a question mark or not ASCII. -/
theorem ReadsAs.not_ascii {cs cs' : List Char} (h : ReadsAs cs cs') (hnot : ¬ Ascii cs) :
    '?' ∈ cs' ∨ ¬ Ascii cs' := by
  rcases exists_unit_of_not_ascii hnot with ⟨u, hu, hge⟩
  have hbyte : latin1Unit u ∈ utf8 cs' := by
    rw [h]
    exact List.mem_map_of_mem hu
  rw [latin1Unit] at hbyte
  split at hbyte
  · case isTrue hlt =>
      have hcode : (UInt8.ofNat u.toNat).toNat = u.toNat := Nat.mod_eq_of_lt hlt
      exact .inr (not_ascii_of_mem_utf8 hbyte (by omega))
  · exact .inl (char_of_mem_utf8 hbyte (by decide))

theorem ReadsAs.length_le {cs cs' : List Char} (h : ReadsAs cs cs') :
    (utf16 cs').length ≤ (utf16 cs).length := by
  have hlen := congrArg List.length h
  rw [latin1_length] at hlen
  rw [← hlen]
  exact utf16_length_le cs'

/-- Reading changes the units of every text that is not ASCII. -/
theorem ReadsAs.utf16_eq_iff {cs cs' : List Char} (h : ReadsAs cs cs') :
    utf16 cs' = utf16 cs ↔ Ascii cs := by
  constructor
  · intro heq
    have hlen := congrArg List.length h
    rw [latin1_length, ← heq] at hlen
    have hascii' : Ascii cs' := ascii_of_length hlen.symm
    by_contra hnot
    rcases exists_unit_of_not_ascii hnot with ⟨u, hu, hge⟩
    have hlt := utf16_ascii_lt hascii' (heq ▸ hu)
    omega
  · intro hascii
    have heq : cs' = cs := utf8_injective (h.trans (latin1_ascii hascii))
    rw [heq]

/-! ## Splitting at ASCII characters -/

/-- A character does not reach across an ASCII byte. -/
theorem utf8_split {cs : List Char} {xs ys : List UInt8} (h : utf8 cs = xs ++ ys)
    (hhead : ∀ b ∈ ys.head?, b.toNat < 128) :
    ∃ cs₁ cs₂, cs = cs₁ ++ cs₂ ∧ utf8 cs₁ = xs ∧ utf8 cs₂ = ys := by
  induction cs generalizing xs with
  | nil =>
      rcases List.append_eq_nil_iff.mp h.symm with ⟨rfl, rfl⟩
      exact ⟨[], [], rfl, rfl, rfl⟩
  | cons c cs ih =>
      cases xs with
      | nil => exact ⟨[], c :: cs, rfl, rfl, h⟩
      | cons x xs =>
          rw [utf8_cons] at h
          rcases List.append_eq_append_iff.mp h with ⟨as, has, hcs⟩ | ⟨bs, hbs, hys⟩
          · rcases ih hcs with ⟨cs₁, cs₂, rfl, hcs₁, hcs₂⟩
            refine ⟨c :: cs₁, cs₂, rfl, ?_, hcs₂⟩
            rw [utf8_cons, hcs₁, has]
          · cases bs with
            | nil =>
                rw [List.append_nil] at hbs
                refine ⟨[c], cs, rfl, ?_, hys.symm⟩
                rw [← hbs, utf8_cons]
                exact List.append_nil _
            | cons b bs =>
                -- the character would go on behind the end of `xs`
                have hb : b.toNat < 128 := hhead b (by rw [hys]; rfl)
                have hmem : b ∈ String.utf8EncodeChar c := by rw [hbs]; simp
                by_cases hc : IsAscii c
                · rw [utf8_of_ascii hc] at hbs
                  have hlen := congrArg List.length hbs
                  simp at hlen
                · have hge := (utf8_of_not_ascii hc).2 b hmem
                  omega

theorem wellFormed_utf8 (cs : List Char) : WellFormed (utf8 cs) := ⟨cs, rfl⟩

theorem WellFormed.append {xs ys : List UInt8} (hx : WellFormed xs) (hy : WellFormed ys) :
    WellFormed (xs ++ ys) := by
  rcases hx with ⟨cs, rfl⟩
  rcases hy with ⟨cs', rfl⟩
  exact ⟨cs ++ cs', utf8_append cs cs'⟩

theorem wellFormed_append_iff {xs ys : List UInt8} (hhead : ∀ b ∈ ys.head?, b.toNat < 128) :
    WellFormed (xs ++ ys) ↔ WellFormed xs ∧ WellFormed ys := by
  constructor
  · rintro ⟨cs, hcs⟩
    rcases utf8_split hcs hhead with ⟨cs₁, cs₂, -, h₁, h₂⟩
    exact ⟨⟨cs₁, h₁⟩, ⟨cs₂, h₂⟩⟩
  · exact fun h => h.1.append h.2

theorem wellFormed_ascii_cons {c : Char} (hc : IsAscii c) (ys : List UInt8) :
    WellFormed (String.utf8EncodeChar c ++ ys) ↔ WellFormed ys := by
  constructor
  · rintro ⟨cs, hcs⟩
    cases cs with
    | nil => simp [utf8, utf8_of_ascii hc] at hcs
    | cons d cs =>
        rw [utf8_cons, utf8_of_ascii hc] at hcs
        by_cases hd : IsAscii d
        · rw [utf8_of_ascii hd] at hcs
          exact ⟨cs, (List.cons.inj hcs).2⟩
        · have hlt : c.toNat < 128 := hc
          have hbytes := (utf8_of_not_ascii hd).2
          cases hcode : String.utf8EncodeChar d with
          | nil => exact absurd hcode String.utf8EncodeChar_ne_nil
          | cons b bs =>
              rw [hcode] at hcs hbytes
              have hb : b = UInt8.ofNat c.toNat := (List.cons.inj hcs).1
              have hge := hbytes b List.mem_cons_self
              rw [hb, hc.byte] at hge
              omega
  · intro h
    have hone : WellFormed (String.utf8EncodeChar c) := ⟨[c], List.append_nil _⟩
    exact hone.append h

/-- Whatever follows the Latin-1 form of the text, `P` is what its own part needs for the
whole to be well-formed UTF-8. -/
def Splits (cs : List Char) (P : Prop) : Prop :=
  ∀ ys, WellFormed (latin1 (utf16 cs) ++ ys) ↔ P ∧ WellFormed ys

theorem splits_ascii {cs : List Char} (h : Ascii cs) : Splits cs True := by
  intro ys
  rw [true_and, latin1_ascii h]
  induction cs with
  | nil => exact Iff.rfl
  | cons c cs ih =>
      rcases ascii_cons.mp h with ⟨hc, hcs⟩
      rw [utf8_cons, List.append_assoc, wellFormed_ascii_cons hc]
      exact ih hcs

theorem Splits.append {cs cs' : List Char} {P Q : Prop} (h : Splits cs P) (h' : Splits cs' Q) :
    Splits (cs ++ cs') (P ∧ Q) := by
  intro ys
  rw [utf16_append, latin1_append, List.append_assoc, h, h', and_assoc]

theorem Splits.congr {cs : List Char} {P Q : Prop} (h : Splits cs P) (hiff : P ↔ Q) :
    Splits cs Q := fun ys => by rw [h ys, hiff]

/-- Any characters in front of an ASCII character split off. -/
theorem Splits.run {cs : List Char} {c : Char} {P : Prop} (h : Splits (c :: cs) P)
    (hc : IsAscii c) (r : List Char) :
    Splits (r ++ c :: cs) (WellFormed (latin1 (utf16 r)) ∧ P) := by
  intro ys
  have hhead : ∀ b ∈ (latin1 (utf16 (c :: cs)) ++ ys).head?, b.toNat < 128 := by
    intro b hb
    have hc8 : latin1 (utf16Char c) = [UInt8.ofNat c.toNat] := by
      have hone := latin1_ascii (ascii_cons.mpr ⟨hc, fun d hd => absurd hd List.not_mem_nil⟩)
      rw [utf16_cons, utf8_cons, utf8_of_ascii hc] at hone
      simpa [utf16, utf8] using hone
    rw [utf16_cons, latin1_append, hc8] at hb
    have hbyte : UInt8.ofNat c.toNat = b := by simpa using hb
    rw [← hbyte, hc.byte]
    exact hc
  rw [utf16_append, latin1_append, List.append_assoc, wellFormed_append_iff hhead, h, and_assoc]

theorem splits_flatMap {α : Type} {f : α → List Char} {P : α → Prop} {xs : List α}
    (h : ∀ x ∈ xs, Splits (f x) (P x)) : Splits (xs.flatMap f) (∀ x ∈ xs, P x) := by
  induction xs with
  | nil =>
      have hnil : Ascii [] := fun c hc => absurd hc List.not_mem_nil
      exact (splits_ascii hnil).congr (by simp)
  | cons x xs ih =>
      rcases List.forall_mem_cons.mp h with ⟨hx, hxs⟩
      exact (hx.append (ih hxs)).congr List.forall_mem_cons.symm

end Foundation
