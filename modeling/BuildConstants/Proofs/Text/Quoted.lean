import BuildConstants.Text.Quoted

/-!
# Reading verbatim literals

A verbatim literal ends at its first quote that is not written twice. The body of a literal is read
back as the text that it stands for, whatever follows, as long as this does not start with a quote;
and nothing else than a literal is read: `readLiteral_eq_some_iff`.
-/

namespace BuildConstants.Text.Quoted

/-- Reads the body of a literal up to the quote that ends it: gives the text that the body stands
for and what follows the quote. -/
def readBody : List Char → Option (List Char × List Char)
  | [] => none
  | c :: rest =>
    if c = '"' then
      match rest with
      | [] => some ([], [])
      | d :: more =>
        if d = '"' then (readBody more).map fun (text, after) => ('"' :: text, after)
        else some ([], d :: more)
    else (readBody rest).map fun (text, after) => (c :: text, after)

theorem readBody_quote {after : List Char} (ends : after.head? ≠ some '"') :
    readBody ('"' :: after) = some ([], after) := by
  cases after with
  | nil => rfl
  | cons c rest =>
      have differs : c ≠ '"' := fun same => ends (congrArg some same)
      rw [readBody]
      simp [differs]

theorem readBody_cons {c : Char} {rest : List Char} (other : c ≠ '"') :
    readBody (c :: rest) = (readBody rest).map fun (text, after) => (c :: text, after) := by
  rw [readBody.eq_def]
  exact if_neg other

/-- What was encoded is read back. -/
theorem readBody_encode (text : List Char) {after : List Char} (ends : after.head? ≠ some '"') :
    readBody (encode text ++ '"' :: after) = some (text, after) := by
  induction text with
  | nil => exact readBody_quote ends
  | cons c rest ih =>
      rw [encode]
      split
      next quote =>
          subst quote
          rw [List.cons_append, List.cons_append, readBody]
          simp [ih]
      next other =>
          rw [List.cons_append, readBody_cons other, ih]
          rfl

/-- Two literals that begin the same text are those of the same text. -/
theorem encode_append_inj {first second after rest : List Char} (ends : after.head? ≠ some '"')
    (endsOther : rest.head? ≠ some '"')
    (same : encode first ++ '"' :: after = encode second ++ '"' :: rest) :
    first = second ∧ after = rest := by
  have read := congrArg readBody same
  rw [readBody_encode first ends, readBody_encode second endsOther] at read
  exact Prod.mk.inj (Option.some.inj read)

/-- What is read is what was encoded, up to the quote that ends it. -/
theorem readBody_eq_some_iff {cs text after : List Char} :
    readBody cs = some (text, after) ↔
      cs = encode text ++ '"' :: after ∧ after.head? ≠ some '"' := by
  refine ⟨fun read => ?_, fun ⟨whole, ends⟩ => whole ▸ readBody_encode text ends⟩
  induction cs using readBody.induct generalizing text with
  | case1 => cases read
  | case2 =>
      cases read
      exact ⟨rfl, by simp⟩
  | case3 more ih =>
      simp only [readBody, if_true, Option.map_eq_some_iff, Prod.mk.injEq] at read
      obtain ⟨⟨front, behind⟩, found, rfl, rfl⟩ := read
      obtain ⟨whole, ends⟩ := ih found
      exact ⟨by simp [encode, whole], ends⟩
  | case4 d more single =>
      simp only [readBody, if_true, single, if_false, Option.some.injEq, Prod.mk.injEq] at read
      obtain ⟨rfl, rfl⟩ := read
      exact ⟨rfl, by simpa using single⟩
  | case5 c rest other ih =>
      rw [readBody_cons other, Option.map_eq_some_iff] at read
      obtain ⟨⟨front, behind⟩, found, same⟩ := read
      cases same
      obtain ⟨whole, ends⟩ := ih found
      exact ⟨by simp [encode, other, whole], ends⟩

/-- Reads the verbatim literal that a text starts with: gives the text that the literal stands for
and what follows it. -/
def readLiteral (text : String) : Option (String × String) :=
  match text.toList with
  | '@' :: '"' :: body =>
    (readBody body).map fun (value, after) => (String.ofList value, String.ofList after)
  | _ => none

variable {text value after : String}

theorem toList_literal_append (value after : String) :
    (literal value ++ after).toList =
      '@' :: '"' :: (encode value.toList ++ '"' :: after.toList) := by
  simp [literal]

/-- A text starts with the literal of exactly one value, which is the one that is read, unless a
quote follows. -/
theorem readLiteral_eq_some_iff :
    readLiteral text = some (value, after) ↔
      text = literal value ++ after ∧ after.toList.head? ≠ some '"' := by
  rw [← String.toList_inj, toList_literal_append, readLiteral]
  constructor
  · intro read
    split at read
    next body whole =>
        obtain ⟨⟨letters, behind⟩, found, same⟩ := Option.map_eq_some_iff.1 read
        cases same
        simpa [whole] using readBody_eq_some_iff.1 found
    next => cases read
  · rintro ⟨whole, ends⟩
    rw [whole]
    simp [readBody_encode value.toList ends]

end BuildConstants.Text.Quoted
