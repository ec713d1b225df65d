import Mathlib
import Pushdown.Proofs.Number.Plain
import Pushdown.Proofs.Number.Range

/-!
# Numerals as float literals

A numeral is a float literal, and its decimal is that of its digits with the point taken out
(`readLiteral_numeral`). A float literal is a finite double exactly if it is a decimal below the
limit of the range (`isFinite_iff_of_read`); the words for infinities and for what is no number are
none, and neither is a decimal of too many digits.
-/

namespace Pushdown.Number

open Text (Stops stops_nil stops_cons takeWhile_stops dropWhile_stops takeWhile_append_stops
  dropWhile_append_stops)

/-- The decimal that digits on either side of a point spell. -/
def Decimal.spelled (negative : Bool) (whole fraction : List Char) : Decimal :=
  ⟨negative, ofDigits (whole ++ fraction), -(fraction.length : Int)⟩

/-- Whether a decimal of digits is below a bound is a comparison of whole numbers. -/
theorem Decimal.magnitude_spelled (negative : Bool) (whole fraction : List Char) :
    (spelled negative whole fraction).magnitude =
      ofDigits (whole ++ fraction) / 10 ^ fraction.length := by
  rw [magnitude, spelled, zpow_neg, zpow_natCast, div_eq_mul_inv]

/-! ## Reading a numeral -/

/-- Characters that a literal may start with: signs, digits, the point and the first letters of the
words. -/
def startsLiteral (c : Char) : Bool :=
  c == '+' || c == '-' || c.isDigit || c == '.' || c.toLower == 'i' || c.toLower == 'n'

/-- Behind a minus sign or alone, a text that starts with no sign and with none of the letters of
the words can only be a decimal. -/
theorem readLiteral_signed {negative : Bool} {c : Char} {s : List Char} (hplus : c ≠ '+')
    (hminus : c ≠ '-') (hi : c.toLower ≠ 'i') (hn : c.toLower ≠ 'n') :
    readLiteral (signed negative (c :: s)) = (readDecimal negative (c :: s)).map .decimal := by
  have hword : ∀ (d : Char) (word : List Char), c.toLower ≠ d →
      String.ofList ((c :: s).map Char.toLower) ≠ String.ofList (d :: word) := by
    intro d word hne heq
    exact hne (List.cons.inj (String.ofList_inj.mp heq)).1
  have hinf : String.ofList ((c :: s).map Char.toLower) ≠ "inf" := hword 'i' ['n', 'f'] hi
  have hinfinity : String.ofList ((c :: s).map Char.toLower) ≠ "infinity" :=
    hword 'i' ['n', 'f', 'i', 'n', 'i', 't', 'y'] hi
  have hnan : String.ofList ((c :: s).map Char.toLower) ≠ "nan" := hword 'n' ['a', 'n'] hn
  have hbody : readLiteral (signed negative (c :: s)) =
      if String.ofList ((c :: s).map Char.toLower) = "inf" ||
          String.ofList ((c :: s).map Char.toLower) = "infinity" then some (.infinity negative)
      else if String.ofList ((c :: s).map Char.toLower) = "nan" then some .notANumber
      else (readDecimal negative (c :: s)).map .decimal := by
    cases negative with
    | true => rfl
    | false =>
      show readLiteral (c :: s) = _
      unfold readLiteral
      split
      · rename_i heq
        split at heq
        · rename_i hcons
          exact absurd (List.cons.inj hcons).1 hplus
        · rename_i hcons
          exact absurd (List.cons.inj hcons).1 hminus
        · cases heq
          rfl
  rw [hbody]
  simp only [hinf, hinfinity, hnan, decide_false, Bool.or_self, Bool.false_eq_true, if_false]

/-- Behind a minus sign or alone, a text that starts with any other character is no literal. -/
theorem readLiteral_eq_none {negative : Bool} {c : Char} {s : List Char}
    (h : startsLiteral c = false) : readLiteral (signed negative (c :: s)) = none := by
  simp only [startsLiteral, Bool.or_eq_false_iff, beq_eq_false_iff_ne] at h
  obtain ⟨⟨⟨⟨⟨hplus, hminus⟩, hdigit⟩, hpoint⟩, hi⟩, hn⟩ := h
  have hwhole : (c :: s).takeWhile Char.isDigit = [] := takeWhile_stops (stops_cons s hdigit)
  have hrest : (c :: s).dropWhile Char.isDigit = c :: s := dropWhile_stops (stops_cons s hdigit)
  have hnone : readDecimal negative (c :: s) = none := by
    unfold readDecimal
    rw [hwhole, hrest]
    split
    rename_i heq
    split at heq
    · rename_i hcons
      exact absurd (List.cons.inj hcons).1 hpoint
    · cases heq
      rfl
  rw [readLiteral_signed hplus hminus hi hn, hnone]
  rfl

section Numeral

variable {negative : Bool} {whole fraction : List Char} (hne : whole ≠ [])
  (hwhole : ∀ c ∈ whole, c.isDigit = true) (hfraction : ∀ c ∈ fraction, c.isDigit = true)

include hne hwhole hfraction

theorem readDecimal_pointed :
    readDecimal negative (pointed whole fraction) =
      some (.spelled negative whole fraction) := by
  have hsome : whole.isEmpty = false := by simpa using hne
  have hend : Stops Char.isDigit [] := stops_nil _
  have hpoint : Stops Char.isDigit ('.' :: fraction) := stops_cons _ (by decide)
  have hbehind := takeWhile_append_stops hfraction hend
  have hnone := dropWhile_append_stops hfraction hend
  rw [List.append_nil] at hbehind hnone
  unfold readDecimal
  by_cases hempty : fraction = []
  · have hwholeEnd := dropWhile_append_stops hwhole hend
    have hwholeRun := takeWhile_append_stops hwhole hend
    rw [List.append_nil] at hwholeEnd hwholeRun
    rw [hempty, pointed_nil, hwholeEnd, hwholeRun]
    simp [hsome, readExponent, Decimal.spelled]
  · rw [pointed_of_ne_nil _ hempty, takeWhile_append_stops hwhole hpoint,
      dropWhile_append_stops hwhole hpoint]
    simp [hsome, hbehind, hnone, readExponent, Decimal.spelled]

/-- A numeral is the literal of the decimal that its digits spell. -/
theorem readLiteral_numeral :
    readLiteral (signed negative (pointed whole fraction)) =
      some (.decimal (.spelled negative whole fraction)) := by
  have hread : readDecimal negative (pointed whole fraction) = _ :=
    readDecimal_pointed hne hwhole hfraction
  cases whole with
  | nil => exact absurd rfl hne
  | cons d ds =>
    have hkind : d ≠ '+' ∧ d ≠ '-' ∧ d.toLower ≠ 'i' ∧ d.toLower ≠ 'n' := by
      simpa [and_assoc] using forall_isDigit
        (p := fun c => c != '+' && c != '-' && c.toLower != 'i' && c.toLower != 'n') (by decide) d
        (hwhole d List.mem_cons_self)
    obtain ⟨hplus, hminus, hi, hn⟩ := hkind
    refine (readLiteral_signed hplus hminus hi hn).trans ?_
    show (readDecimal negative (pointed (d :: ds) fraction)).map _ = _
    rw [hread]
    rfl

end Numeral

/-! ## Literals in the range of doubles -/

namespace Double

theorem ofText?_numeral {negative : Bool} {whole fraction : List Char} (hne : whole ≠ [])
    (hwhole : ∀ c ∈ whole, c.isDigit = true) (hfraction : ∀ c ∈ fraction, c.isDigit = true) :
    ofText? (signed negative (pointed whole fraction)) =
      some (ofDecimal (.spelled negative whole fraction)) := by
  rw [ofText?, readLiteral_numeral hne hwhole hfraction]
  rfl

theorem ofText?_eq_none {s : List Char} (h : readLiteral s = none) : ofText? s = none := by
  rw [ofText?, h]
  rfl

theorem read_eq_ok_iff {s : List Char} {x : Double} :
    read s = .ok x ↔
      ∃ literal, readLiteral s = some literal ∧ ofLiteralBy ofQuotient literal = x := by
  unfold read ofText?
  cases readLiteral s with
  | none => simp
  | some literal => simp

/-- A literal is read as a finite double exactly if it is a decimal below the limit. -/
theorem isFinite_iff_of_read {s : List Char} {x : Double} (h : read s = .ok x) :
    x.isFinite = true ↔ ∃ d, readLiteral s = some (.decimal d) ∧ d.magnitude < limit := by
  obtain ⟨literal, hliteral, rfl⟩ := read_eq_ok_iff.mp h
  rw [hliteral]
  cases literal with
  | decimal d =>
    refine (isFinite_ofDecimal_iff d).trans ⟨fun hbelow => ⟨d, rfl, hbelow⟩, ?_⟩
    rintro ⟨other, hother, hbelow⟩
    obtain rfl := FloatLiteral.decimal.inj (Option.some.inj hother)
    exact hbelow
  | infinity negative =>
    refine iff_of_false Bool.false_ne_true ?_
    rintro ⟨d, hd, -⟩
    cases hd
  | notANumber =>
    refine iff_of_false Bool.false_ne_true ?_
    rintro ⟨d, hd, -⟩
    cases hd

end Double

end Pushdown.Number
