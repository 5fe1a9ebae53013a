import FloralSync.Rfc3339

/-!
# The `chrono` crate

`DateTime<Utc>` and its RFC 3339 functions come from the `chrono` crate, so the model is generic in
them: `Chrono` is what the server calls, `LawfulChrono` what it relies on. A time whose UTC year has
four digits survives being stored as text; any other is written with a sign, which the parser, that
wants four year digits first, rejects. `Rfc3339.Civil` is one such type of times.
-/

namespace FloralSync

/-- `chrono::DateTime<Utc>`. `parseFromRfc3339` stands for `DateTime::parse_from_rfc3339` followed by
`with_timezone(&Utc)`. -/
class Chrono (τ : Type) extends LinearOrder τ where
  year : τ → Int
  toRfc3339 : τ → String
  parseFromRfc3339 : String → Option τ

export Chrono (toRfc3339 parseFromRfc3339)

variable {τ : Type} [Chrono τ]

/-- The UTC year is one of 0..=9999. -/
def FourDigitYear (t : τ) : Prop := 0 ≤ Chrono.year t ∧ Chrono.year t ≤ 9999

instance (t : τ) : Decidable (FourDigitYear t) := inferInstanceAs (Decidable (_ ∧ _))

class LawfulChrono (τ : Type) [Chrono τ] : Prop where
  parse_toRfc3339 (t : τ) : FourDigitYear t → parseFromRfc3339 (toRfc3339 t) = some t
  sign_of_toRfc3339 (t : τ) : ¬ FourDigitYear t →
    ∃ c cs, (toRfc3339 t).toList = c :: cs ∧ (c = '+' ∨ c = '-')
  digit_of_parse (s : String) (t : τ) : parseFromRfc3339 s = some t →
    ∃ c cs, s.toList = c :: cs ∧ c.isDigit = true

/-- Exactly the times with a four-digit year can be read back. -/
theorem parse_toRfc3339 [LawfulChrono τ] (t : τ) :
    (parseFromRfc3339 (toRfc3339 t) : Option τ) = if FourDigitYear t then some t else none := by
  split_ifs with ht
  · exact LawfulChrono.parse_toRfc3339 t ht
  · obtain ⟨c, cs, hc, hsign⟩ := LawfulChrono.sign_of_toRfc3339 t ht
    cases hp : (parseFromRfc3339 (toRfc3339 t) : Option τ) with
    | none => rfl
    | some u =>
      obtain ⟨c', cs', hc', hdigit⟩ := LawfulChrono.digit_of_parse _ u hp
      rw [hc] at hc'
      obtain ⟨rfl, -⟩ := List.cons.inj hc'
      rcases hsign with rfl | rfl <;> cases hdigit

instance : Chrono Rfc3339.Civil where
  year t := t.year
  toRfc3339 := Rfc3339.Civil.toText
  parseFromRfc3339 := Rfc3339.Civil.ofText

instance : LawfulChrono Rfc3339.Civil where
  parse_toRfc3339 t ht := t.ofText_toText ht.1 ht.2
  sign_of_toRfc3339 t ht := t.toText_sign ht
  digit_of_parse _ _ h := Rfc3339.Civil.isDigit_of_ofText h

end FloralSync
