import Mathlib
import Pushdown.Proofs.Outcome
import Pushdown.Text.Hex

/-!
# Digits that spell bytes

`Spells` says which small digits spell which bytes: two for each byte, its high half first. Main
statements: bytes are spelled by the digits that are written for them and by no others
(`spells_iff`), and a text is read just if its digits, made small, spell bytes (`read_eq_ok_iff`),
which are the texts of an even number of digits in either case (`exists_spells_iff`).
-/

namespace Pushdown.Text.Hex

/-- The sixteen digits in rising order, in small letters. -/
def smallDigits : List Char :=
  ['0', '1', '2', '3', '4', '5', '6', '7', '8', '9', 'a', 'b', 'c', 'd', 'e', 'f']

/-- Digits in either case. -/
def IsHex (c : Char) : Prop :=
  c.toLower ∈ smallDigits

/-- Small digits that spell bytes: for each byte the digit of its high half and the digit of its low
half. -/
inductive Spells : List Char → List UInt8 → Prop
  | nil : Spells [] []
  | cons {high low : Char} {b : UInt8} {digits : List Char} {bytes : List UInt8} :
      smallDigits[b.toNat / 16]? = some high → smallDigits[b.toNat % 16]? = some low →
        Spells digits bytes → Spells (high :: low :: digits) (b :: bytes)

/-! ## Digits -/

theorem getElem?_smallDigits {n : Nat} (h : n < 16) : smallDigits[n]? = some (digit n) := by
  interval_cases n <;> rfl

theorem lt_of_getElem?_smallDigits {n : Nat} {c : Char} (h : smallDigits[n]? = some c) :
    n < 16 := by
  obtain ⟨hn, -⟩ := List.getElem?_eq_some_iff.mp h
  exact hn

/-- A character up to an ASCII character is one. -/
theorem toNat_lt_of_le {c d : Char} (h : c ≤ d) (hd : d.toNat < 128) : c.toNat < 128 := by
  have hle : c.toNat ≤ d.toNat := UInt32.le_iff_toNat_le.mp h
  omega

theorem toNat_lt_of_isHex {c : Char} (h : IsHex c) : c.toNat < 128 := by
  by_cases hupper : c.isUpper = true
  · have hlast : c ≤ 'Z' := (of_decide_eq_true hupper).2
    exact toNat_lt_of_le hlast (by decide)
  · rw [IsHex, Char.toLower_eq_of_not_isUpper hupper] at h
    have hall : smallDigits.all (fun c => c ≤ 'f') = true := by decide
    have hlast : c ≤ 'f' := by simpa using List.all_eq_true.mp hall c h
    exact toNat_lt_of_le hlast (by decide)

theorem toNat_lt_of_digitValue? {c : Char} {n : Nat} (h : digitValue? c = some n) :
    c.toNat < 128 := by
  unfold digitValue? at h
  split at h
  · rename_i hdigit
    have hrange : 48 ≤ c.toNat ∧ c.toNat ≤ 57 := Char.isDigit_iff_toNat.mp hdigit
    omega
  split at h
  · rename_i hsmall
    simp only [Bool.and_eq_true, decide_eq_true_eq] at hsmall
    exact toNat_lt_of_le hsmall.2 (by decide)
  split at h
  · rename_i hcapital
    simp only [Bool.and_eq_true, decide_eq_true_eq] at hcapital
    exact toNat_lt_of_le hcapital.2 (by decide)
  · cases h

/-- A character stands for the place that it has among the digits when it is made small. -/
theorem digitValue?_eq (c : Char) : digitValue? c = smallDigits.idxOf? c.toLower := by
  by_cases hascii : c.toNat < 128
  · have hall : ∀ n < 128, digitValue? (Char.ofNat n) =
        smallDigits.idxOf? (Char.ofNat n).toLower := by decide
    have hc := hall c.toNat hascii
    rwa [Char.ofNat_toNat] at hc
  · have habsent : c.toLower ∉ smallDigits := fun h => hascii (toNat_lt_of_isHex h)
    rw [List.idxOf?_eq_none_iff.mpr habsent, Option.eq_none_iff_forall_ne_some]
    exact fun n h => hascii (toNat_lt_of_digitValue? h)

theorem digitValue?_eq_some_iff {c : Char} {n : Nat} :
    digitValue? c = some n ↔ smallDigits[n]? = some c.toLower := by
  have hnodup : smallDigits.Nodup := by decide
  rw [digitValue?_eq, List.idxOf?_eq_some_iff, List.getElem?_eq_some_iff]
  constructor
  · intro ⟨hn, hget, _⟩
    exact ⟨hn, hget⟩
  · intro ⟨hn, hget⟩
    refine ⟨hn, hget, ?_⟩
    intro j hj hsame
    have hindex : j = n := (hnodup.getElem_inj_iff).mp (hsame.trans hget.symm)
    omega

theorem digitValue?_digit {n : Nat} (h : n < 16) : digitValue? (digit n) = some n := by
  have hsmall : (digit n).toLower = digit n := by
    interval_cases n <;> decide
  rw [digitValue?_eq_some_iff, getElem?_smallDigits h, hsmall]

/-! ## Bytes -/

/-- The two halves of a byte, each below sixteen, make up the byte. -/
theorem halves_ofNat {high low : Nat} (hhigh : high < 16) (hlow : low < 16) :
    (UInt8.ofNat (16 * high + low)).toNat / 16 = high ∧
      (UInt8.ofNat (16 * high + low)).toNat % 16 = low := by
  have hbyte : (UInt8.ofNat (16 * high + low)).toNat = 16 * high + low := by
    rw [UInt8.toNat_ofNat']
    omega
  omega

theorem ofNat_halves (b : UInt8) : UInt8.ofNat (16 * (b.toNat / 16) + b.toNat % 16) = b := by
  rw [Nat.div_add_mod, UInt8.ofNat_toNat]

/-- The first two digits spell the first byte. -/
theorem spells_cons_iff {c d : Char} {digits : List Char} {bytes : List UInt8} :
    Spells (c :: d :: digits) bytes ↔
      ∃ high low rest, smallDigits[high]? = some c ∧ smallDigits[low]? = some d ∧
        Spells digits rest ∧ bytes = UInt8.ofNat (16 * high + low) :: rest := by
  constructor
  · intro h
    cases h with
    | @cons _ _ b _ rest hhigh hlow hrest =>
      exact ⟨b.toNat / 16, b.toNat % 16, rest, hhigh, hlow, hrest, by rw [ofNat_halves]⟩
  · intro ⟨high, low, rest, hhigh, hlow, hrest, hbytes⟩
    subst hbytes
    obtain ⟨hdiv, hmod⟩ :=
      halves_ofNat (lt_of_getElem?_smallDigits hhigh) (lt_of_getElem?_smallDigits hlow)
    exact .cons (by rwa [hdiv]) (by rwa [hmod]) hrest

/-- The digits that are written for bytes spell them. -/
theorem spells_ofBytes (bytes : List UInt8) : Spells (ofBytes bytes) bytes := by
  induction bytes with
  | nil => exact .nil
  | cons b bytes ih =>
    have hb : b.toNat < 256 := b.toNat_lt
    exact .cons (getElem?_smallDigits (by omega)) (getElem?_smallDigits (by omega)) ih

theorem Spells.eq_ofBytes {digits : List Char} {bytes : List UInt8} (h : Spells digits bytes) :
    digits = ofBytes bytes := by
  induction h with
  | nil => rfl
  | @cons high low b digits bytes hhigh hlow _ ih =>
    have hb : b.toNat < 256 := b.toNat_lt
    rw [getElem?_smallDigits (by omega), Option.some.injEq] at hhigh hlow
    rw [ih, ← hhigh, ← hlow]
    rfl

/-- Bytes are spelled by the digits that are written for them and by no others. -/
theorem spells_iff {digits : List Char} {bytes : List UInt8} :
    Spells digits bytes ↔ digits = ofBytes bytes := by
  constructor
  · exact Spells.eq_ofBytes
  · intro h
    rw [h]
    exact spells_ofBytes bytes

/-- Digits that spell bytes are small already. -/
theorem Spells.map_toLower {digits : List Char} {bytes : List UInt8} (h : Spells digits bytes) :
    digits.map Char.toLower = digits := by
  have hsmall {n : Nat} {c : Char} (hc : smallDigits[n]? = some c) : c.toLower = c := by
    have hall : smallDigits.all (fun c => c.toLower = c) = true := by decide
    simpa using List.all_eq_true.mp hall c (List.mem_of_getElem? hc)
  induction h with
  | nil => rfl
  | cons hhigh hlow _ ih => rw [List.map_cons, List.map_cons, hsmall hhigh, hsmall hlow, ih]

/-- Digits in either case spell bytes, when they are made small, just if their number is even. -/
theorem exists_spells_iff {s : List Char} :
    (∃ bytes, Spells (s.map Char.toLower) bytes) ↔ Even s.length ∧ ∀ c ∈ s, IsHex c := by
  induction s using List.twoStepInduction with
  | nil => simpa using ⟨[], Spells.nil⟩
  | singleton c =>
    have hodd : ¬ ∃ bytes, Spells [c.toLower] bytes := by
      intro ⟨bytes, h⟩
      cases h
    simpa using hodd
  | cons_cons c d s ih _ =>
    have hlength : Even (c :: d :: s).length ↔ Even s.length := by
      simp [Nat.even_add_one]
    rw [hlength, List.map_cons, List.map_cons, List.forall_mem_cons, List.forall_mem_cons]
    constructor
    · intro ⟨bytes, h⟩
      obtain ⟨high, low, rest, hhigh, hlow, hrest, -⟩ := spells_cons_iff.mp h
      obtain ⟨heven, hs⟩ := ih.mp ⟨rest, hrest⟩
      exact ⟨heven, List.mem_of_getElem? hhigh, List.mem_of_getElem? hlow, hs⟩
    · intro ⟨heven, hc, hd, hs⟩
      obtain ⟨rest, hrest⟩ := ih.mpr ⟨heven, hs⟩
      obtain ⟨high, hhigh⟩ := List.mem_iff_getElem?.mp hc
      obtain ⟨low, hlow⟩ := List.mem_iff_getElem?.mp hd
      exact ⟨_, spells_cons_iff.mpr ⟨high, low, rest, hhigh, hlow, hrest, rfl⟩⟩

/-! ## Reading -/

/-- The first two characters are read as the first byte. -/
theorem readPairs_cons_iff {position : Nat} {c d : Char} {s : List Char} {bytes : List UInt8} :
    readPairs position (c :: d :: s) = .ok bytes ↔
      ∃ high low rest, digitValue? c = some high ∧ digitValue? d = some low ∧
        readPairs (position + 2) s = .ok rest ∧ bytes = UInt8.ofNat (16 * high + low) :: rest := by
  rw [readPairs]
  split
  · rename_i hc
    simp [hc]
  · rename_i high hc
    split
    · rename_i hd
      simp [hd]
    · rename_i low hd
      rw [map_eq_ok_iff]
      simp [hc, hd, eq_comm]

/-- Characters are read as the bytes that they spell when they are made small. -/
theorem readPairs_eq_ok_iff {position : Nat} {s : List Char} {bytes : List UInt8} :
    readPairs position s = .ok bytes ↔ Spells (s.map Char.toLower) bytes := by
  induction s using List.twoStepInduction generalizing position bytes with
  | nil =>
    constructor
    · intro h
      obtain rfl : [] = bytes := Except.ok.inj h
      exact .nil
    · intro h
      cases h
      rfl
  | singleton c =>
    constructor
    · intro h
      cases h
    · intro h
      cases h
  | cons_cons c d s ih _ =>
    rw [readPairs_cons_iff, List.map_cons, List.map_cons, spells_cons_iff]
    simp only [digitValue?_eq_some_iff, ih]

/-- The bytes of an ASCII character are the character. -/
theorem byteChars_ascii {s : List Char} (h : ∀ c ∈ s, c.toNat < 128) : byteChars s = s := by
  induction s with
  | nil => rfl
  | cons c s ih =>
    have hc : c.toNat < 128 := h c List.mem_cons_self
    have hbytes : String.utf8EncodeChar c = [UInt8.ofNat c.toNat] := if_pos (Nat.le_of_lt_succ hc)
    have hbyte : (UInt8.ofNat c.toNat).toNat = c.toNat := by
      rw [UInt8.toNat_ofNat']
      omega
    show (String.utf8EncodeChar c).map _ ++ byteChars s = c :: s
    rw [ih fun other hother => h other (List.mem_cons_of_mem c hother), hbytes]
    simp [hbyte, Char.ofNat_toNat]

/-- A character that is not ASCII has a byte that is not. -/
theorem exists_byte_of_not_ascii {c : Char} (h : 128 ≤ c.toNat) :
    ∃ b ∈ String.utf8EncodeChar c, 128 ≤ b.toNat := by
  have hlead (n : Nat) (low : 128 ≤ n) (high : n < 256) : 128 ≤ (UInt8.ofNat n).toNat := by
    rw [UInt8.toNat_ofNat']
    omega
  unfold String.utf8EncodeChar
  dsimp only
  split
  · rename_i hascii
    exact absurd hascii (by show ¬ c.toNat ≤ 127; omega)
  split
  · exact ⟨_, List.mem_cons_self, hlead _ (by omega) (by omega)⟩
  split
  · exact ⟨_, List.mem_cons_self, hlead _ (by omega) (by omega)⟩
  · exact ⟨_, List.mem_cons_self, hlead _ (by omega) (by omega)⟩

theorem ascii_of_byteChars {s : List Char} (h : ∀ c ∈ byteChars s, c.toNat < 128) :
    ∀ c ∈ s, c.toNat < 128 := by
  intro c hc
  by_contra hlarge
  obtain ⟨b, hmem, hb⟩ := exists_byte_of_not_ascii (Nat.le_of_not_lt hlarge)
  have hvalue : (Char.ofNat b.toNat).toNat = b.toNat := by
    have hlt : b.toNat < 256 := b.toNat_lt
    rw [Char.toNat_ofNat, if_pos (.inl (by omega))]
  have hchar := h (Char.ofNat b.toNat)
    (List.mem_flatMap.mpr ⟨c, hc, List.mem_map_of_mem hmem⟩)
  omega

/-- A text is read just if its digits, made small, spell bytes, and then as these. -/
theorem read_eq_ok_iff {s : List Char} {bytes : List UInt8} :
    read s = .ok bytes ↔ Spells (s.map Char.toLower) bytes := by
  unfold read
  dsimp only
  by_cases hascii : ∀ c ∈ s, c.toNat < 128
  · rw [byteChars_ascii hascii]
    split
    · rename_i hodd
      have hnone : ¬ Spells (s.map Char.toLower) bytes := by
        intro h
        have heven := (exists_spells_iff.mp ⟨bytes, h⟩).1
        rw [Nat.even_iff] at heven
        omega
      simp [hnone]
    · exact readPairs_eq_ok_iff
  · -- Neither the text nor its bytes are digits.
    have hnone : ¬ Spells (s.map Char.toLower) bytes := by
      intro h
      obtain ⟨_, hs⟩ := exists_spells_iff.mp ⟨bytes, h⟩
      exact hascii fun c hc => toNat_lt_of_isHex (hs c hc)
    have hunread : readPairs 0 (byteChars s) ≠ .ok bytes := by
      intro h
      obtain ⟨_, hs⟩ := exists_spells_iff.mp ⟨bytes, readPairs_eq_ok_iff.mp h⟩
      exact hascii (ascii_of_byteChars fun c hc => toNat_lt_of_isHex (hs c hc))
    split
    · simp [hnone]
    · simp [hnone, hunread]

/-- Written bytes read back. -/
theorem read_ofBytes (bytes : List UInt8) : read (ofBytes bytes) = .ok bytes := by
  have hspells : Spells (ofBytes bytes) bytes := spells_ofBytes bytes
  rw [read_eq_ok_iff, hspells.map_toLower]
  exact hspells

theorem ofBytes_inj {a b : List UInt8} : ofBytes a = ofBytes b ↔ a = b := by
  constructor
  · intro h
    have ha : read (ofBytes a) = .ok a := read_ofBytes a
    rw [h, read_ofBytes] at ha
    exact (Except.ok.inj ha).symm
  · intro h
    rw [h]

end Pushdown.Text.Hex
