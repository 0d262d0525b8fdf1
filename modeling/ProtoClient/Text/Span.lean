/-!
# Spans of code points

Properties of characters are kept as lists of spans of code points, both ends included.

## Main definitions

* `covers spans n`: some span has `n` in it

## Main results

* `covers_iff`: membership in a table, said with a quantifier
* `covers_eq_false_of_lt`: a code point before every span is outside the table
-/

namespace ProtoClient.Text

/-- Whether some span of the list, both ends included, has the code point in it. -/
def covers (spans : List (Nat × Nat)) (n : Nat) : Bool :=
  spans.any fun span => decide (span.1 ≤ n) && decide (n ≤ span.2)

theorem covers_iff {spans : List (Nat × Nat)} {n : Nat} :
    covers spans n = true ↔ ∃ span ∈ spans, span.1 ≤ n ∧ n ≤ span.2 := by
  simp [covers]

@[simp] theorem covers_cons (span : Nat × Nat) (spans : List (Nat × Nat)) (n : Nat) :
    covers (span :: spans) n =
      ((decide (span.1 ≤ n) && decide (n ≤ span.2)) || covers spans n) := rfl

theorem covers_eq_false_of_lt {spans : List (Nat × Nat)} {n : Nat}
    (h : ∀ span ∈ spans, n < span.1) : covers spans n = false := by
  rw [← Bool.not_eq_true, covers_iff]
  rintro ⟨span, hspan, hlow, -⟩
  exact Nat.not_le_of_lt (h span hspan) hlow

end ProtoClient.Text
