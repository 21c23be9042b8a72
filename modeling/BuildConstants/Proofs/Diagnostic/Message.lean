import BuildConstants.Proofs.Declaration.Verdict
import BuildConstants.Proofs.SourceUnit.Filename
import BuildConstants.Proofs.Text.Mark
import BuildConstants.Proofs.Text.Replace

/-!
# Messages

A template is filled at once when each slot that has an argument is replaced by it and nothing that
an argument brings along is looked at. The message of a diagnostic fills one argument after the
other, so what it shows between the brackets is the first argument with its own slots filled by the
later ones. `Diagnostic.message_fillsAtOnce_iff` says when this is the template filled at once.
-/

namespace BuildConstants

/-! ### Slots -/

section Slots

variable {number : Nat} {rest more : List Char}

theorem slot_eq (number : Nat) : slot number = "\x7b" ++ toString number ++ "\x7d" := rfl

theorem toList_slot (number : Nat) :
    (slot number).toList = '\x7b' :: ((toString number).toList ++ ['\x7d']) := by
  rw [slot_eq, String.toList_append, String.toList_append]
  rfl

theorem slot_head? (number : Nat) : (slot number).toList.head? = some '\x7b' := by
  rw [toList_slot, List.head?_cons]

theorem slot_getLast? (number : Nat) : (slot number).toList.getLast? = some '\x7d' := by
  rw [toList_slot, ← List.cons_append, List.getLast?_concat]

theorem slot_ne_nil (number : Nat) : (slot number).toList ≠ [] := by
  rw [toList_slot]
  exact List.cons_ne_nil _ _

/-- The number of a slot is written in digits, so the first closing brace is that of the slot. -/
theorem brace_notMem_number (number : Nat) : '\x7d' ∉ (toString number).toList := by
  rw [Nat.toString_eq_ofList_toDigits, String.toList_ofList]
  intro member
  have isDigit := Nat.isDigit_of_mem_toDigits (by decide) (by decide) member
  revert isDigit
  decide

/-- A text begins with the slot of one number at most. -/
theorem slot_append_inj {first second : Nat}
    (same : (slot first).toList ++ rest = (slot second).toList ++ more) :
    first = second ∧ rest = more := by
  simp only [toList_slot, List.cons_append, List.append_assoc, List.cons.injEq, true_and,
    List.nil_append] at same
  obtain ⟨numbers, rests⟩ :=
    Text.append_cons_inj (brace_notMem_number first) (brace_notMem_number second) same
  exact ⟨toString_injective (String.toList_inj.1 numbers), rests⟩

end Slots

/-! ### Filling at once -/

/-- The second text is the first one with each slot that has an argument filled by it. Only slots of
the first text count: what an argument brings along is passed over. -/
@[mk_iff]
inductive FillsAtOnce (arguments : List String) : List Char → List Char → Prop
  | done : FillsAtOnce arguments [] []
  | fill {number : Nat} {argument : String} {template message : List Char}
      (given : arguments[number]? = some argument)
      (onward : FillsAtOnce arguments template message) :
      FillsAtOnce arguments ((slot number).toList ++ template) (argument.toList ++ message)
  | keep {c : Char} {template message : List Char}
      (noSlot : ∀ number < arguments.length, ¬ (slot number).toList <+: c :: template)
      (onward : FillsAtOnce arguments template message) :
      FillsAtOnce arguments (c :: template) (c :: message)

namespace FillsAtOnce

variable {arguments : List String} {template message other : List Char}

theorem of_nil (filled : FillsAtOnce arguments [] message) : message = [] := by
  rcases (fillsAtOnce_iff ..).1 filled with ⟨-, rfl⟩ | ⟨number, _, _, _, -, -, whole, -⟩ |
    ⟨_, _, _, -, -, whole, -⟩
  · rfl
  · exact absurd (List.append_eq_nil_iff.1 whole.symm).1 (slot_ne_nil number)
  · cases whole

/-- A template that begins with the slot of an argument is filled by the argument there. -/
theorem of_slot {number : Nat} {argument : String} (given : arguments[number]? = some argument)
    (filled : FillsAtOnce arguments ((slot number).toList ++ template) message) :
    ∃ onward, FillsAtOnce arguments template onward ∧ message = argument.toList ++ onward := by
  rcases (fillsAtOnce_iff ..).1 filled with
    ⟨whole, -⟩ | ⟨_, _, _, onward, found, later, whole, rfl⟩ |
    ⟨_, _, _, noSlot, -, whole, -⟩
  · exact absurd (List.append_eq_nil_iff.1 whole).1 (slot_ne_nil number)
  · obtain ⟨rfl, rfl⟩ := slot_append_inj whole
    cases given.symm.trans found
    exact ⟨onward, later, rfl⟩
  · obtain ⟨within, -⟩ := List.getElem?_eq_some_iff.1 given
    exact absurd ⟨template, whole⟩ (noSlot number within)

/-- A character that no slot of an argument begins with stays. -/
theorem of_keep {c : Char}
    (noSlot : ∀ number < arguments.length, ¬ (slot number).toList <+: c :: template)
    (filled : FillsAtOnce arguments (c :: template) message) :
    ∃ onward, FillsAtOnce arguments template onward ∧ message = c :: onward := by
  rcases (fillsAtOnce_iff ..).1 filled with ⟨whole, -⟩ | ⟨number, _, rest, _, found, -, whole, -⟩ |
    ⟨_, _, onward, -, later, whole, rfl⟩
  · cases whole
  · obtain ⟨within, -⟩ := List.getElem?_eq_some_iff.1 found
    exact absurd ⟨rest, whole.symm⟩ (noSlot number within)
  · cases whole
    exact ⟨onward, later, rfl⟩

/-- A template is filled in one way. -/
theorem unique (filled : FillsAtOnce arguments template message)
    (filledOther : FillsAtOnce arguments template other) : message = other := by
  induction filled generalizing other with
  | done => exact filledOther.of_nil.symm
  | fill given _ ih =>
      obtain ⟨onward, later, rfl⟩ := filledOther.of_slot given
      rw [ih later]
  | keep noSlot _ ih =>
      obtain ⟨onward, later, rfl⟩ := filledOther.of_keep noSlot
      rw [ih later]

/-- Text without an opening brace stays. -/
theorem append_left {front : List Char} (absent : '\x7b' ∉ front)
    (filled : FillsAtOnce arguments template message) :
    FillsAtOnce arguments (front ++ template) (front ++ message) := by
  induction front with
  | nil => exact filled
  | cons c rest ih =>
      obtain ⟨differs, absent⟩ := List.ne_and_not_mem_of_not_mem_cons absent
      refine .keep (fun number _ ⟨others, whole⟩ => ?_) (ih absent)
      rw [toList_slot] at whole
      exact differs (List.cons.inj whole).1

/-- Without arguments nothing is filled. -/
theorem of_no_arguments (template : List Char) : FillsAtOnce [] template template := by
  induction template with
  | nil => exact .done
  | cons c rest ih => exact .keep (fun _ within => absurd within (Nat.not_lt_zero _)) ih

end FillsAtOnce

/-! ### Filling one after the other -/

section FillSlots

variable {first : Nat} {arguments : List String} {front text behind : String}

/-- Text on both sides of a part stays, as long as no slot begins in front of it and none ends
behind it. -/
theorem fillSlots_between (absentFront : '\x7b' ∉ front.toList)
    (absentBehind : '\x7d' ∉ behind.toList)
    (first : Nat) (arguments : List String) (text : String) :
    fillSlots first arguments (front ++ text ++ behind) =
      front ++ fillSlots first arguments text ++ behind := by
  induction arguments generalizing first text with
  | nil => rfl
  | cons argument rest ih =>
      rw [fillSlots, fillSlots,
        Text.replace_between (slot_head? first) (slot_getLast? first) absentFront absentBehind, ih]

theorem replace_of_absent {pattern argument : String}
    (absent : ¬ pattern.toList <:+: text.toList) : Text.replace pattern argument text = text := by
  rw [Text.replace, Text.replaceFrom_of_absent absent, String.ofList_toList]

/-- A text without slots of the arguments stays. -/
theorem fillSlots_of_absent
    (absent : ∀ number, first ≤ number → number < first + arguments.length →
      ¬ (slot number).toList <:+: text.toList) :
    fillSlots first arguments text = text := by
  induction arguments generalizing first with
  | nil => rfl
  | cons argument rest ih =>
      rw [List.length_cons] at absent
      rw [fillSlots, replace_of_absent (absent first (Nat.le_refl _) (by omega))]
      exact ih fun number low high => absent number (by omega) (by omega)

/-- Arguments without an opening brace add none. -/
theorem count_fillSlots_le (plain : ∀ argument ∈ arguments, '\x7b' ∉ argument.toList)
    (first : Nat) (text : String) :
    (fillSlots first arguments text).toList.count '\x7b' ≤ text.toList.count '\x7b' := by
  induction arguments generalizing first text with
  | nil => rfl
  | cons argument rest ih =>
      obtain ⟨plainHead, plainRest⟩ := List.forall_mem_cons.1 plain
      have fewer : (Text.replace (slot first) argument text).toList.count '\x7b' ≤
          text.toList.count '\x7b' := by
        rw [Text.replace, String.toList_ofList]
        exact Text.count_replaceFrom_le plainHead 0 text.toList
      rw [fillSlots]
      exact (ih plainRest _ _).trans fewer

/-- A text with a slot of an argument changes, if the arguments bring no opening brace along: one of
its opening braces is gone. -/
theorem not_infix_of_fillSlots_eq (plain : ∀ argument ∈ arguments, '\x7b' ∉ argument.toList)
    (same : fillSlots first arguments text = text) {number : Nat} (low : first ≤ number)
    (high : number < first + arguments.length) : ¬ (slot number).toList <:+: text.toList := by
  induction arguments generalizing first with
  | nil =>
      rw [List.length_nil] at high
      omega
  | cons argument rest ih =>
      obtain ⟨plainHead, plainRest⟩ := List.forall_mem_cons.1 plain
      rw [List.length_cons] at high
      rw [fillSlots] at same
      have absent : ¬ (slot first).toList <:+: text.toList := by
        intro found
        have brace : '\x7b' ∈ (slot first).toList := List.mem_of_head? (slot_head? first)
        have fewer := Text.count_replaceFrom_lt plainHead brace found
        have rests :=
          count_fillSlots_le plainRest (first + 1) (Text.replace (slot first) argument text)
        rw [same, Text.replace, String.toList_ofList] at rests
        omega
      rcases Nat.eq_or_lt_of_le low with rfl | later
      · exact absent
      · rw [replace_of_absent absent] at same
        exact ih plainRest same later (by omega)

end FillSlots

/-! ### Messages -/

namespace DiagnosticKind

/-- What the messages of a kind say in front of the text between the brackets. -/
def lead : DiagnosticKind → String
  | invalidShape => "Property must be static partial and has getter. property=["
  | unsupportedType => "Unsupported property type. type=["

/-- The message of a kind that shows a text between the brackets. -/
def bracketed (kind : DiagnosticKind) (shown : String) : String :=
  kind.lead ++ shown ++ "]"

variable (kind : DiagnosticKind)

theorem template_eq_bracketed : kind.descriptor.template = kind.bracketed (slot 0) := by
  cases kind <;> decide +kernel

theorem bracketed_injective : Function.Injective kind.bracketed := by
  intro shown other same
  rw [bracketed, bracketed, String.append_left_inj, String.append_right_inj] at same
  exact same

theorem brace_notMem_lead : '\x7b' ∉ kind.lead.toList := by
  cases kind <;> decide +kernel

/-- Filling the slots of a message fills those of the text between the brackets. -/
theorem fillSlots_bracketed (first : Nat) (arguments : List String) (shown : String) :
    fillSlots first arguments (kind.bracketed shown) =
      kind.bracketed (fillSlots first arguments shown) :=
  fillSlots_between kind.brace_notMem_lead (by decide) first arguments shown

/-- Filled at once, the template shows the first argument, or its own slot if there is none. -/
theorem fillsAtOnce_template (arguments : List String) :
    FillsAtOnce arguments kind.descriptor.template.toList
      (kind.bracketed (arguments.headD (slot 0))).toList := by
  cases arguments with
  | nil =>
      rw [template_eq_bracketed]
      exact .of_no_arguments _
  | cons first rest =>
      have noBrace : '\x7b' ∉ [']'] := by decide
      have closing : FillsAtOnce (first :: rest) [']'] [']'] := .append_left noBrace .done
      rw [template_eq_bracketed, bracketed, bracketed, String.append_assoc, String.append_assoc]
      simp only [String.toList_append]
      exact .append_left kind.brace_notMem_lead (.fill rfl closing)

end DiagnosticKind

theorem fillSlots_slot (first : String) (rest : List String) :
    fillSlots 0 (first :: rest) (slot 0) = fillSlots 1 rest first := by
  have filled : Text.replaceFrom (slot 0).toList first.toList 0 ((slot 0).toList ++ []) =
      first.toList ++ Text.replaceFrom (slot 0).toList first.toList 0 [] :=
    Text.replaceFrom_pattern_append (slot_ne_nil 0)
  rw [List.append_nil, Text.replaceFrom, List.append_nil] at filled
  rw [fillSlots, Text.replace, filled, String.ofList_toList]

namespace Diagnostic

variable {d : Diagnostic} {first : String} {rest : List String}

/-- The message is the template of the diagnostic, filled at once. -/
def IsFilledAtOnce (d : Diagnostic) : Prop :=
  FillsAtOnce d.arguments d.descriptor.template.toList d.message.toList

/-- The first argument holds no slot of a later one. -/
def IsSlotFree (d : Diagnostic) : Prop :=
  ∀ first rest, d.arguments = first :: rest →
    ∀ number, 1 ≤ number → number < 1 + rest.length → ¬ (slot number).toList <:+: first.toList

/-- A message shows the slot of the template, filled by one argument after the other. -/
theorem message_eq_bracketed (d : Diagnostic) :
    d.message = d.kind.bracketed (fillSlots 0 d.arguments (slot 0)) := by
  rw [message, descriptor, DiagnosticKind.template_eq_bracketed, DiagnosticKind.fillSlots_bracketed]

theorem message_of_arguments (given : d.arguments = first :: rest) :
    d.message = d.kind.bracketed (fillSlots 1 rest first) := by
  rw [message_eq_bracketed, given, fillSlots_slot]

theorem isFilledAtOnce_iff_message :
    d.IsFilledAtOnce ↔ d.message = d.kind.bracketed (d.arguments.headD (slot 0)) := by
  have filled := d.kind.fillsAtOnce_template d.arguments
  constructor
  · intro isFilled
    exact String.toList_inj.1 (isFilled.unique filled)
  · intro same
    rw [IsFilledAtOnce, same]
    exact filled

/-- Whether a message is filled at once depends on what the later arguments do to the first one. -/
theorem isFilledAtOnce_iff :
    d.IsFilledAtOnce ↔
      ∀ first rest, d.arguments = first :: rest → fillSlots 1 rest first = first := by
  rw [isFilledAtOnce_iff_message, message_eq_bracketed, d.kind.bracketed_injective.eq_iff]
  cases given : d.arguments with
  | nil => simp [fillSlots]
  | cons first rest =>
      rw [fillSlots_slot, List.headD_cons]
      constructor
      · rintro same _ _ ⟨⟩
        exact same
      · exact fun same => same first rest rfl

theorem IsSlotFree.isFilledAtOnce (slotFree : d.IsSlotFree) : d.IsFilledAtOnce :=
  isFilledAtOnce_iff.2 fun first rest given => fillSlots_of_absent (slotFree first rest given)

/-- As long as the later arguments bring no opening brace along, a filled slot is a changed text. -/
theorem IsFilledAtOnce.isSlotFree (filled : d.IsFilledAtOnce)
    (plain : ∀ argument ∈ d.arguments.tail, '\x7b' ∉ argument.toList) : d.IsSlotFree := by
  intro first rest given number low high
  rw [given, List.tail_cons] at plain
  exact not_infix_of_fillSlots_eq plain (isFilledAtOnce_iff.1 filled first rest given) low high

/-- A declaration is rejected with a single argument, which nothing comes after. -/
theorem isSlotFree_of_verdict {declaration : Declaration}
    (rejected : declaration.verdict = .error d) : d.IsSlotFree := by
  obtain ⟨shown, given⟩ := Declaration.exists_argument rejected
  intro first rest whole number low high
  obtain ⟨-, rfl⟩ := List.cons.inj (given.symm.trans whole)
  rw [List.length_nil] at high
  omega

/-- A template is filled at once in one way, which shows the first argument between the brackets. A
message shows the first argument with its slots filled by the later ones in turn, so it is the
template filled at once exactly when those leave the first argument as it is. They do when it holds
no slot of theirs, as with every diagnostic against a declaration, and only then if they bring no
opening brace along. -/
theorem message_fillsAtOnce_iff (d : Diagnostic) :
    (∃! text : String, FillsAtOnce d.arguments d.descriptor.template.toList text.toList) ∧
    (∀ first rest, d.arguments = first :: rest →
      FillsAtOnce d.arguments d.descriptor.template.toList (d.kind.bracketed first).toList ∧
      d.message = d.kind.bracketed (fillSlots 1 rest first)) ∧
    (d.IsFilledAtOnce ↔
      ∀ first rest, d.arguments = first :: rest → fillSlots 1 rest first = first) ∧
    (d.IsSlotFree → d.IsFilledAtOnce) ∧
    ((∀ argument ∈ d.arguments.tail, '\x7b' ∉ argument.toList) → d.IsFilledAtOnce → d.IsSlotFree) ∧
    ∀ declaration : Declaration, declaration.verdict = .error d → d.IsFilledAtOnce := by
  have filled := d.kind.fillsAtOnce_template d.arguments
  refine ⟨⟨_, filled, fun text other => String.toList_inj.1 (other.unique filled)⟩,
    fun first rest given => ⟨?_, message_of_arguments given⟩, isFilledAtOnce_iff,
    IsSlotFree.isFilledAtOnce, fun plain filled => filled.isSlotFree plain,
    fun _ rejected => (isSlotFree_of_verdict rejected).isFilledAtOnce⟩
  rw [given, List.headD_cons, ← given] at filled
  exact filled

/-- The slots of arguments that are not there stay in the text. -/
theorem message_of_absent_argument :
    (⟨.unsupportedType, none, ["\x7b0\x7d\x7b2\x7d", "x"]⟩ : Diagnostic).IsFilledAtOnce := by
  refine (message_fillsAtOnce_iff _).2.2.2.1 ?_
  rintro first rest ⟨⟩ number low high
  obtain rfl : number = 1 := by
    rw [List.length_singleton] at high
    omega
  decide +kernel

/-- The second argument gets into the first one. -/
theorem message_of_slot_in_argument :
    (⟨.invalidShape, none, ["\x7b1\x7d", "x"]⟩ : Diagnostic).message =
      "Property must be static partial and has getter. property=[x]" ∧
    ¬ (⟨.invalidShape, none, ["\x7b1\x7d", "x"]⟩ : Diagnostic).IsFilledAtOnce := by
  refine ⟨by decide +kernel, fun filled => ?_⟩
  have shown := isFilledAtOnce_iff_message.1 filled
  revert shown
  decide +kernel

end Diagnostic

end BuildConstants
