import Bulletin.Element
import Bulletin.Proofs.Moves

/-! The grammar of documents. It says how a tree of elements can be written out,
without saying how a document is read. -/
namespace Bulletin

open Text Lexer

instance : DecidablePred Identifier.IsIdentifier
  | [] => inferInstanceAs (Decidable False)
  | _ :: rest => @instDecidableAnd _ _ inferInstance (List.decidableBAll _ rest)

/-- The delimiters hold no character that can stand inside a tag, and no line
break. Delimiters may still begin or end with each other. -/
def Markup.IsPlain (m : Markup) : Prop :=
  ∀ kind d, m.delimiters? kind = some d → ∀ c ∈ d.opening ++ d.closing,
    Identifier.isContinue c = false ∧ c ∉ ['\t', ' ', '\r', '\n']

/-- The names that a tag can hold: identifiers other than the keywords. -/
def IsName (name : String) : Prop :=
  Identifier.IsIdentifier name.toList ∧ name ∉ ["IF", "NOT", "ELSE", "ENDIF"]

instance : DecidablePred IsName := fun _ => inferInstanceAs (Decidable (_ ∧ _))

/-- The ways to write a variable. -/
inductive VariableTag (m : Markup) (name : String) : List Char → Prop where
  | mk {d : Delimiters} {left right : List Char} (hDelimiters : m.variables? = some d)
      (hLeft : IsGapRun left) (hName : IsName name) (hRight : IsGapRun right) :
      VariableTag m name (d.opening ++ left ++ name.toList ++ right ++ d.closing)

/-- The ways to write the beginning of a conditional. The words are kept apart
by gaps; between them and the delimiters a gap may be missing. -/
inductive IfTag (m : Markup) (name : String) : Polarity → List Char → Prop where
  | whenTrue {d : Delimiters} {left middle right : List Char}
      (hDelimiters : m.directives? = some d) (hLeft : IsGapRun left)
      (hMiddle : IsGapRun middle) (hApart : middle ≠ []) (hName : IsName name)
      (hRight : IsGapRun right) :
      IfTag m name .whenTrue
        (d.opening ++ left ++ "IF".toList ++ middle ++ name.toList ++ right ++ d.closing)
  | whenFalse {d : Delimiters} {left before middle right : List Char}
      (hDelimiters : m.directives? = some d) (hLeft : IsGapRun left)
      (hBefore : IsGapRun before) (hApart : before ≠ []) (hMiddle : IsGapRun middle)
      (hApart' : middle ≠ []) (hName : IsName name) (hRight : IsGapRun right) :
      IfTag m name .whenFalse
        (d.opening ++ left ++ "IF".toList ++ before ++ "NOT".toList ++ middle ++
          name.toList ++ right ++ d.closing)

/-- The ways to write the end of a conditional. -/
inductive EndIfTag (m : Markup) : List Char → Prop where
  | mk {d : Delimiters} {left right : List Char} (hDelimiters : m.directives? = some d)
      (hLeft : IsGapRun left) (hRight : IsGapRun right) :
      EndIfTag m (d.opening ++ left ++ "ENDIF".toList ++ right ++ d.closing)

/-- `Printing m es text rest`: the elements `es` can be written as `text` where
`rest` follows in the document. What follows matters for literals only: no
opening may begin inside one, not even one that ends behind it. Of the spans of
the elements nothing is asked. -/
inductive Printing (m : Markup) : List Element → List Char → List Char → Prop where
  | nil {rest : List Char} : Printing m [] [] rest
  | literal {text : String} {span : Span} {es : List Element} {more rest : List Char}
      (hText : text.toList ≠ []) (hUntouched : m.Untouched text.toList (more ++ rest))
      (hApart : ∀ next nextSpan, es.head? ≠ some (.literal next nextSpan))
      (hRest : Printing m es more rest) :
      Printing m (.literal text span :: es) (text.toList ++ more) rest
  | «variable» {name : String} {span : Span} {es : List Element} {tag more rest : List Char}
      (hTag : VariableTag m name tag) (hRest : Printing m es more rest) :
      Printing m (.variable name span :: es) (tag ++ more) rest
  | conditional {polarity : Polarity} {name : String} {nameSpan span : Span}
      {body es : List Element} {opening inside closing more rest : List Char}
      (hOpening : IfTag m name polarity opening)
      (hBody : Printing m body inside (closing ++ more ++ rest))
      (hClosing : EndIfTag m closing) (hRest : Printing m es more rest) :
      Printing m (.conditional polarity (.variable name nameSpan) body span :: es)
        (opening ++ inside ++ closing ++ more) rest

theorem Keyword.ofText?_eq_none_iff {word : String} :
    Keyword.ofText? word = none ↔ word ∉ ["IF", "NOT", "ELSE", "ENDIF"] := by
  constructor
  · intro hNone hMem
    simp only [List.mem_cons, List.not_mem_nil, or_false] at hMem
    rcases hMem with rfl | rfl | rfl | rfl <;> exact absurd hNone (by decide)
  · intro hOther
    refine List.find?_eq_none.mpr ?_
    rintro k - hText
    rw [beq_iff_eq] at hText
    subst hText
    cases k <;> exact hOther (by decide)

theorem Keyword.isIdentifier_text (k : Keyword) : Identifier.IsIdentifier k.text.toList := by
  cases k <;> decide +kernel

namespace Lexer

theorem isGap_eq_false_of_isContinue {c : Char} (hContinue : Identifier.isContinue c = true) :
    isGap c = false := by
  rw [Bool.eq_false_iff]
  intro hGap
  simp only [isGap, Bool.or_eq_true, beq_iff_eq] at hGap
  rcases hGap with rfl | rfl <;> exact absurd hContinue (by decide +kernel)

theorem isLineBreak_eq_false_of_isContinue {c : Char}
    (hContinue : Identifier.isContinue c = true) : isLineBreak c = false := by
  rw [Bool.eq_false_iff]
  intro hBreak
  simp only [isLineBreak, Bool.or_eq_true, beq_iff_eq] at hBreak
  rcases hBreak with rfl | rfl <;> exact absurd hContinue (by decide +kernel)

theorem isLineBreak_eq_false_of_isGap {c : Char} (hGap : isGap c = true) :
    isLineBreak c = false := by
  simp only [isGap, Bool.or_eq_true, beq_iff_eq] at hGap
  rcases hGap with rfl | rfl <;> rfl

/-- The kind of a word tells names from keywords. -/
theorem wordKind_eq_identifier_iff {word : List Char} :
    wordKind word = .identifier ↔ String.ofList word ∉ ["IF", "NOT", "ELSE", "ENDIF"] := by
  rw [← Keyword.ofText?_eq_none_iff]
  unfold wordKind
  cases Keyword.ofText? (String.ofList word) <;> simp

theorem wordKind_text (k : Keyword) : wordKind k.text.toList = .keyword k := by
  cases k <;> decide

theorem eq_text_of_wordKind {word : List Char} {k : Keyword} (hKind : wordKind word = .keyword k) :
    word = k.text.toList := by
  unfold wordKind at hKind
  cases hWord : Keyword.ofText? (String.ofList word) with
  | none => simp [hWord] at hKind
  | some found =>
      rw [hWord] at hKind
      obtain rfl : found = k := by simpa using hKind
      have hText := List.find?_some hWord
      rw [beq_iff_eq] at hText
      rw [hText, String.toList_ofList]

end Lexer

theorem IsName.wordKind_eq {name : String} (hName : IsName name) :
    wordKind name.toList = .identifier := by
  rw [wordKind_eq_identifier_iff, String.ofList_toList]
  exact hName.2

theorem Text.Identifier.IsIdentifier.isContinue {word : List Char}
    (hWord : Identifier.IsIdentifier word) : ∀ c ∈ word, Identifier.isContinue c = true := by
  cases word with
  | nil => exact absurd hWord (by simp [Identifier.IsIdentifier])
  | cons c rest =>
      intro d hd
      rcases List.mem_cons.mp hd with rfl | hd
      · exact Identifier.isContinue_of_isStart hWord.1
      · exact hWord.2 d hd

theorem Text.Identifier.IsIdentifier.exists_cons {word : List Char}
    (hWord : Identifier.IsIdentifier word) :
    ∃ c rest, word = c :: rest ∧ Identifier.isStart c = true := by
  cases word with
  | nil => exact absurd hWord (by simp [Identifier.IsIdentifier])
  | cons c rest => exact ⟨c, rest, rfl, hWord.1⟩

namespace Markup.IsPlain

variable {m : Markup} {kind : TagKind} {d : Delimiters} {c : Char} {text : List Char}

/-- No delimiter begins with a character that can stand inside a tag. -/
theorem head_not_inner (hPlain : m.IsPlain) (hd : m.delimiters? kind = some d)
    (hMem : c ∈ d.opening ++ d.closing) :
    ¬(Identifier.isContinue c = true ∨ isGap c = true) := by
  obtain ⟨hContinue, hOther⟩ := hPlain kind d hd c hMem
  rintro (hInner | hGap)
  · simp [hInner] at hContinue
  · simp only [isGap, Bool.or_eq_true, beq_iff_eq] at hGap
    rcases hGap with rfl | rfl <;> simp at hOther

theorem not_opens_cons (hPlain : m.IsPlain)
    (hInner : Identifier.isContinue c = true ∨ isGap c = true) : ¬m.Opens (c :: text) := by
  rintro ⟨kind, d, hd, right, hText⟩
  obtain ⟨b, opening, hOpening⟩ := List.exists_cons_of_ne_nil d.opening_ne_nil
  obtain ⟨rfl, -⟩ := List.cons.inj (hOpening ▸ hText)
  exact hPlain.head_not_inner hd (by simp [hOpening]) hInner

theorem not_closing_cons (hPlain : m.IsPlain) (hd : m.delimiters? kind = some d)
    (hInner : Identifier.isContinue c = true ∨ isGap c = true) : ¬d.closing <+: c :: text := by
  rintro ⟨right, hText⟩
  obtain ⟨b, closing, hClosing⟩ := List.exists_cons_of_ne_nil d.closing_ne_nil
  obtain ⟨rfl, -⟩ := List.cons.inj (hClosing ▸ hText)
  exact hPlain.head_not_inner hd (by simp [hClosing]) hInner

/-- Where an opening stands before a character that can stand inside a tag, it
is the one that is read. -/
theorem openingAt?_eq (hPlain : m.IsPlain) (hd : m.delimiters? kind = some d)
    (hInner : Identifier.isContinue c = true ∨ isGap c = true) (offset : Nat) :
    m.openingAt? offset (d.opening ++ c :: text) = some ⟨kind, d, offset⟩ := by
  refine Markup.openingAt?_of_longest hd ⟨c :: text, rfl⟩ ?_
  intro other e he hPrefix
  rcases List.prefix_or_prefix_of_prefix hPrefix ⟨c :: text, rfl⟩ with hPart | hLonger
  · exact hPart
  · obtain ⟨right, hOpening⟩ := hLonger
    cases right with
    | nil => exact ⟨[], by simpa using hOpening.symm⟩
    | cons b right =>
        obtain ⟨after, hAfter⟩ := hPrefix
        rw [← hOpening, List.append_assoc, List.append_cancel_left_eq] at hAfter
        obtain ⟨rfl, -⟩ := List.cons.inj hAfter
        exact absurd hInner (hPlain.head_not_inner he (by simp [← hOpening]))

end Markup.IsPlain

end Bulletin
