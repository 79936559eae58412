import Mathlib.Data.List.Infix
import Mathlib.Data.List.SplitBy
import Bulletin.Proofs.Lockstep

/-! Characters inside a tag with which no token can begin. A run of them is cut in front
of each character that could go on a name, although it cannot begin one, so that it is
not always a single piece of invalid input. -/
namespace Bulletin

open Text Lexer

instance (m : Markup) (text : List Char) : Decidable (m.Opens text) :=
  decidable_of_iff ((m.openingAt? 0 text).isSome = true) Markup.isSome_openingAt?_iff

/-- Inside a tag with the delimiters no token begins where the text does. Its first
character is no gap, no line break and does not begin a name, and neither the tag ends
there nor another one begins. -/
def IsStray (m : Markup) (d : Delimiters) (text : List Char) : Prop :=
  (∃ c ∈ text.head?, isGap c = false ∧ isLineBreak c = false ∧ Identifier.isStart c = false) ∧
    ¬ d.closing <+: text ∧ ¬ m.Opens text

instance (m : Markup) (d : Delimiters) (text : List Char) : Decidable (IsStray m d text) :=
  inferInstanceAs (Decidable (_ ∧ _))

/-- No token begins anywhere in the run, and one does, or the tag ends, behind it. -/
structure IsStrayRun (m : Markup) (d : Delimiters) (run right : List Char) : Prop where
  ne_nil : run ≠ []
  stray : ∀ text ∈ run.tails, text ≠ [] → IsStray m d (text ++ right)
  ends : ¬ IsStray m d right

theorem IsStrayRun.of_suffix {m : Markup} {d : Delimiters} {run rest right : List Char}
    (hRun : IsStrayRun m d run right) (hRest : rest <:+ run) (hSome : rest ≠ []) :
    IsStrayRun m d rest right where
  ne_nil := hSome
  stray text hText := by
    rw [List.mem_tails] at hText
    exact hRun.stray text ((List.mem_tails text run).mpr (hText.trans hRest))
  ends := hRun.ends

/-- The lexemes `before` leave a tag with the delimiters open. -/
def LeaveOpen (m : Markup) (d : Delimiters) (before : List Lexeme) : Prop :=
  ∃ earlier opening inner kind, before = earlier ++ opening :: inner ∧
    opening.kind = .beginTag kind ∧ m.delimiters? kind = some d ∧ ∀ y ∈ inner, y.kind.IsInterior

/-- Where the pieces of a run are cut: in front of what could go on a name. -/
def cutRun (run : List Char) : List (List Char) :=
  run.splitBy fun _ c => !Identifier.isContinue c

theorem cutRun_cons (c : Char) (rest : List Char) : cutRun (c :: rest) =
    (c :: rest.takeWhile fun c => !Identifier.isContinue c) ::
      cutRun (rest.dropWhile fun c => !Identifier.isContinue c) := by
  have hWhile : ∀ d ∈ rest.takeWhile fun c => !Identifier.isContinue c,
      (!Identifier.isContinue d) = true :=
    fun d hd => List.mem_takeWhile_imp (p := fun c => !Identifier.isContinue c) hd
  have hPiece : (c :: rest.takeWhile fun c => !Identifier.isContinue c).IsChain
      fun _ d => (!Identifier.isContinue d) = true :=
    List.Pairwise.isChain (List.pairwise_cons.mpr
      ⟨hWhile, List.pairwise_of_forall_mem_list fun _ _ d hd => hWhile d hd⟩)
  have hCut : c :: rest = (c :: rest.takeWhile fun c => !Identifier.isContinue c) ++
      rest.dropWhile fun c => !Identifier.isContinue c := by
    rw [List.cons_append, List.takeWhile_append_dropWhile]
  rw [cutRun, hCut, List.splitBy_append, List.splitBy_of_isChain (by simp) hPiece]
  · rfl
  · exact fun _ _ d hd => stops_dropWhile (fun c => !Identifier.isContinue c) rest d hd

theorem cutRun_nil : cutRun [] = [] := rfl

/-- A run is a single piece just if nothing behind its first character could go on a
name. -/
theorem length_cutRun_eq_one_iff {run : List Char} (hRun : run ≠ []) :
    (cutRun run).length = 1 ↔ ∀ c ∈ run.tail, Identifier.isContinue c = false := by
  obtain ⟨c, rest, rfl⟩ := List.exists_cons_of_ne_nil hRun
  rw [cutRun_cons, List.length_cons, Nat.add_eq_right, List.length_eq_zero_iff, cutRun,
    List.splitBy_eq_nil, List.dropWhile_eq_nil_iff]
  simp

namespace Lexer

variable {m : Markup} {s next : Lexer} {x : Lexeme} {tag : Opening} {run right : List Char}

/-- Inside a tag the next lexeme is invalid input just where no token begins. -/
theorem Move.unexpected_iff (hMove : Move m s x next) (hTag : s.tag? = some tag) :
    x.kind = .unexpected ↔ IsStray m tag.delimiters s.rest := by
  cases hMove with
  | text hOutside => simp [hTag] at hOutside
  | opening hOutside => simp [hTag] at hOutside
  | closing hInside hRest =>
      obtain rfl := Option.some.inj (hTag.symm.trans hInside)
      simp [take, IsStray, hRest]
  | broken _ _ hEnd =>
      refine iff_of_false (by simp [take]) ?_
      rintro ⟨⟨c, hc, -, hBreak, -⟩, -, hOpens⟩
      rcases hEnd with hNil | hOther | ⟨d, hd, hLine⟩
      · simp [hNil] at hc
      · exact hOpens hOther
      · obtain rfl : c = d := Option.some.inj (hc.symm.trans hd)
        simp [hBreak] at hLine
  | gap _ _ _ hRest hText hGap =>
      refine iff_of_false (by simp [take]) ?_
      rintro ⟨⟨c, hc, hNoGap, -⟩, -⟩
      obtain ⟨d, text, rfl⟩ := List.exists_cons_of_ne_nil hText
      obtain rfl : d = c := by simpa [hRest] using hc
      have hIsGap : isGap d = true := hGap d List.mem_cons_self
      simp [hNoGap] at hIsGap
  | word _ _ _ hRest hWord =>
      refine iff_of_false ?_ ?_
      · unfold take wordKind
        split <;> simp
      · rintro ⟨⟨c, hc, -, -, hNoStart⟩, -⟩
        obtain ⟨d, text, rfl, hStart⟩ := hWord.exists_cons
        obtain rfl : d = c := by simpa [hRest] using hc
        simp [hNoStart] at hStart
  | stray hInside hClosing hOpening hRest hBreak hGap hWord =>
      obtain rfl := Option.some.inj (hTag.symm.trans hInside)
      exact ⟨fun _ => ⟨⟨_, by simp [hRest], hGap, hBreak, hWord⟩, hClosing, hOpening⟩, fun _ => rfl⟩

theorem endsRun_of_stray {c : Char} {rest : List Char}
    (hStray : IsStray m tag.delimiters (c :: rest)) :
    endsRun m tag (c :: rest) = Identifier.isContinue c := by
  obtain ⟨⟨d, hd, hGap, hBreak, -⟩, hClosing, hOpens⟩ := hStray
  obtain rfl : c = d := Option.some.inj hd
  have hNoClosing : (stripped? tag.delimiters.closing (c :: rest)).isSome = false := by
    rwa [← isSome_stripped?_iff, Bool.not_eq_true] at hClosing
  have hNoOpening : (m.openingAt? 0 (c :: rest)).isSome = false := by
    rwa [← Markup.isSome_openingAt?_iff, Bool.not_eq_true] at hOpens
  simp only [endsRun, hGap, hBreak, hNoClosing, hNoOpening, Bool.or_false, Bool.false_or]

theorem endsRun_of_not_stray {text : List Char} (hEnds : ¬ IsStray m tag.delimiters text) :
    endsRun m tag text = true := by
  by_contra hOn
  refine hEnds ?_
  simp only [endsRun, Bool.or_eq_true, not_or, isSome_stripped?_iff,
    Markup.isSome_openingAt?_iff] at hOn
  obtain ⟨⟨hHead, hClosing⟩, hOpens⟩ := hOn
  cases text with
  | nil => exact absurd rfl hHead
  | cons c rest =>
      simp only [Bool.or_eq_true, not_or, Bool.not_eq_true] at hHead
      obtain ⟨⟨hGap, hContinue⟩, hBreak⟩ := hHead
      refine ⟨⟨c, rfl, hGap, hBreak, ?_⟩, hClosing, hOpens⟩
      rw [Bool.eq_false_iff]
      intro hStart
      simp [Identifier.isContinue_of_isStart hStart] at hContinue

/-- The reader ends a run of its own where a character can go on a name. -/
theorem splitRun_stray
    (hStray : ∀ text ∈ run.tails, text ≠ [] → IsStray m tag.delimiters (text ++ right))
    (hEnds : ¬ IsStray m tag.delimiters right) :
    splitRun m tag (run ++ right) = (run.takeWhile fun c => !Identifier.isContinue c,
      (run.dropWhile fun c => !Identifier.isContinue c) ++ right) := by
  induction run with
  | nil =>
      cases right with
      | nil => rfl
      | cons c rest => rw [List.nil_append, splitRun, if_pos (endsRun_of_not_stray hEnds)]; rfl
  | cons c run ih =>
      rw [List.tails_cons, List.forall_mem_cons] at hStray
      have hHere : endsRun m tag (c :: (run ++ right)) = Identifier.isContinue c :=
        endsRun_of_stray (hStray.1 (List.cons_ne_nil c run))
      rw [List.cons_append, splitRun, hHere, ih hStray.2]
      cases hContinue : Identifier.isContinue c <;> simp [hContinue]

theorem Move.of_unexpected (hMove : Move m s x next) (hTag : s.tag? = some tag)
    (hKind : x.kind = .unexpected) {c : Char} {rest : List Char} (hRest : s.rest = c :: rest) :
    x.text.toList = c :: (splitRun m tag rest).1 ∧ next.rest = (splitRun m tag rest).2 ∧
      next.tag? = some tag := by
  cases hMove with
  | stray hInside _ _ hText =>
      obtain rfl := Option.some.inj (hTag.symm.trans hInside)
      obtain ⟨rfl, rfl⟩ := List.cons.inj (hRest.symm.trans hText)
      simp [take]
  | word =>
      unfold take wordKind at hKind
      split at hKind <;> cases hKind
  | _ => cases hKind

/-- One piece of a run. -/
theorem exists_piece (hValid : s.Valid m) (hTag : s.tag? = some tag) {c : Char}
    {rest : List Char} (hRest : s.rest = c :: (rest ++ right))
    (hRun : IsStrayRun m tag.delimiters (c :: rest) right) :
    ∃ x next, step m s = some (x, next) ∧ x.kind = .unexpected ∧
      x.text.toList = (c :: rest.takeWhile fun c => !Identifier.isContinue c) ∧
      next.rest = (rest.dropWhile fun c => !Identifier.isContinue c) ++ right ∧
      next.tag? = some tag := by
  obtain ⟨x, next, hStep⟩ : ∃ x next, step m s = some (x, next) :=
    exists_step (Or.inl (by simp [hTag]))
  have hMove := step_move hValid hStep
  obtain ⟨hStray, hMore⟩ := List.forall_mem_cons.mp (List.tails_cons c rest ▸ hRun.stray)
  have hKind : x.kind = .unexpected := by
    rw [hMove.unexpected_iff hTag, hRest]
    exact hStray (List.cons_ne_nil c rest)
  have hPiece := hMove.of_unexpected hTag hKind hRest
  rw [splitRun_stray hMore hRun.ends] at hPiece
  exact ⟨x, next, hStep, hKind, hPiece⟩

/-- The pieces of a whole run. -/
theorem run_stray (hValid : s.Valid m) (hTag : s.tag? = some tag) (hRest : s.rest = run ++ right)
    (hRun : IsStrayRun m tag.delimiters run right) :
    ∃ strays, ∃ next : Lexer, s.run m = strays ++ next.run m ∧
      (∀ x ∈ strays, x.kind = .unexpected) ∧
      strays.map (fun x => x.text.toList) = cutRun run ∧
      next.rest = right ∧ next.tag? = some tag ∧ next.Valid m := by
  induction hMeasure : run.length using Nat.strongRecOn generalizing s run with
  | ind n ih =>
      subst hMeasure
      obtain ⟨c, rest, rfl⟩ := List.exists_cons_of_ne_nil hRun.ne_nil
      obtain ⟨x, next, hStep, hKind, hText, hNext, hInside⟩ := exists_piece hValid hTag hRest hRun
      have hValidNext := step_valid hValid hStep
      by_cases hEnd : (rest.dropWhile fun c => !Identifier.isContinue c) = []
      · refine ⟨[x], next, run_of_some hStep, by simpa using hKind, ?_, ?_, hInside, hValidNext⟩
        · rw [cutRun_cons, hEnd, cutRun_nil, List.map_singleton, hText]
        · simpa [hEnd] using hNext
      · have hSuffix : (rest.dropWhile fun c => !Identifier.isContinue c) <:+ rest :=
          List.dropWhile_suffix _
        have hLess := Nat.lt_succ_of_le hSuffix.length_le
        obtain ⟨strays, last, hMore, hKinds, hTexts, hLast⟩ := ih _ hLess hValidNext hInside hNext
          (hRun.of_suffix (hSuffix.trans (List.suffix_cons c rest)) hEnd) rfl
        refine ⟨x :: strays, last, by rw [run_of_some hStep, hMore]; rfl,
          List.forall_mem_cons.mpr ⟨hKind, hKinds⟩, ?_, hLast⟩
        rw [List.map_cons, hText, hTexts, cutRun_cons]

/-- Behind some of the lexemes of a source its reader goes on with the others. Lexemes of
a tag leave it in the tag. -/
theorem exists_behind {before after : List Lexeme} (hValid : s.Valid m)
    (hRun : s.run m = before ++ after) :
    ∃ next : Lexer, next.run m = after ∧ next.Valid m ∧
      ((∀ y ∈ before, y.kind.IsInterior) →
        next.tag?.map Opening.kind = s.tag?.map Opening.kind) := by
  induction before generalizing s with
  | nil => exact ⟨s, hRun, hValid, fun _ => rfl⟩
  | cons x before ih =>
      cases hStep : step m s with
      | none => simp [run_of_none hStep] at hRun
      | some result =>
          obtain ⟨y, next⟩ := result
          rw [run_of_some hStep] at hRun
          obtain ⟨rfl, hMore⟩ := List.cons.inj hRun
          obtain ⟨last, hLast, hValidLast, hTag⟩ := ih (step_valid hValid hStep) hMore
          refine ⟨last, hLast, hValidLast, fun hInterior => ?_⟩
          obtain ⟨hHere, hBefore⟩ := List.forall_mem_cons.mp hInterior
          rw [hTag hBefore, (step_move hValid hStep).leads.eq_of_isInterior hHere]

/-- Where a tag is open, the reader of the source is in it. -/
theorem exists_behind_open {source : List Char} {before after : List Lexeme} {d : Delimiters}
    (hSplit : m.lexemes source = before ++ after) (hOpen : LeaveOpen m d before) :
    ∃ s : Lexer, ∃ tag, s.run m = after ∧ s.Valid m ∧ s.tag? = some tag ∧ tag.delimiters = d ∧
      s.rest = Lexeme.textOf after := by
  obtain ⟨earlier, opening, inner, kind, rfl, hOpening, hd, hInner⟩ := hOpen
  rw [List.append_assoc] at hSplit
  obtain ⟨s, hRun, hValid, -⟩ := exists_behind (valid_start m source) hSplit
  cases hStep : step m s with
  | none => simp [run_of_none hStep] at hRun
  | some result =>
      obtain ⟨x, next⟩ := result
      rw [run_of_some hStep] at hRun
      obtain ⟨rfl, hMore⟩ := List.cons.inj hRun
      have hLeads := (step_move hValid hStep).leads
      rw [hOpening] at hLeads
      obtain ⟨last, hLast, hValidLast, hKept⟩ := exists_behind (step_valid hValid hStep) hMore
      have hKind : last.tag?.map Opening.kind = some kind := by
        rw [hKept hInner, hLeads.eq_some_of_beginTag]
      obtain ⟨tag, hTag, rfl⟩ := Option.map_eq_some_iff.mp hKind
      refine ⟨last, tag, hLast, hValidLast, hTag, ?_, ?_⟩
      · exact Option.some.inj ((hValidLast.tag tag hTag).symm.trans hd)
      · rw [← hLast]
        exact (run_text m last).symm

end Lexer

namespace Engine

/-- Invalid input inside a tag, in accumulate mode. Where the tokens before leave a tag
open, the next one is invalid input with a text just if no token can begin there. A
run of characters with which none can, as long as it goes, becomes such tokens and
nothing else, each with a diagnostic of its own. They are the pieces of the run cut in
front of each character that can go on a name, so it is one token just if there is no
such character behind the first. -/
theorem tokenize_strays (m : Markup) (source : List Char) (log : Log) :
    ∃ tokens, (Engine.mk m .accumulate).tokenize source log =
        (.ok tokens, log.complainAll source (tokens.filterMap Token.complaint?)) ∧
      ∀ before after d, tokens.map Token.toLexeme = before ++ after → LeaveOpen m d before →
        (∀ x ∈ after.head?, x.kind = .unexpected ↔ IsStray m d (Lexeme.textOf after)) ∧
        ∀ run right, Lexeme.textOf after = run ++ right → IsStrayRun m d run right →
          ∃ strays later, after = strays ++ later ∧ Lexeme.textOf later = right ∧
            strays.map (fun x => x.text.toList) = cutRun run ∧
            (∀ x ∈ strays, x.kind = .unexpected ∧
              x.complaint? = some ⟨.unexpectedText x.text, x.span⟩) ∧
            (∀ x ∈ later.head?, x.kind ≠ .unexpected) ∧
            (strays.length = 1 ↔ ∀ c ∈ run.tail, Identifier.isContinue c = false) := by
  refine ⟨_, tokenize_accumulate m source log, ?_⟩
  intro before after d hSplit hOpen
  rw [tokens, Token.map_toLexeme_locate] at hSplit
  have hNext {s : Lexer} {tag : Opening} (hValid : s.Valid m) (hTag : s.tag? = some tag) :
      ∀ x ∈ (s.run m).head?, x.kind = .unexpected ↔ IsStray m tag.delimiters s.rest := by
    intro x hx
    obtain ⟨y, next, hStep⟩ : ∃ y next, step m s = some (y, next) :=
      exists_step (Or.inl (by simp [hTag]))
    obtain rfl : y = x := by simpa [run_of_some hStep] using hx
    exact (step_move hValid hStep).unexpected_iff hTag
  obtain ⟨s, tag, hRun, hValid, hTag, rfl, hRest⟩ := exists_behind_open hSplit hOpen
  refine ⟨by simpa [hRun, hRest] using hNext hValid hTag, fun run right hText hStray => ?_⟩
  obtain ⟨strays, next, hAfter, hKinds, hPieces, hRight, hInside, hValidNext⟩ :=
    run_stray hValid hTag (hRest.trans hText) hStray
  refine ⟨strays, next.run m, hRun.symm.trans hAfter, ?_, hPieces, fun x hx => ?_, ?_, ?_⟩
  · rw [← hRight]
    exact run_text m next
  · exact ⟨hKinds x hx, by simp [Lexeme.complaint?, hKinds x hx]⟩
  · intro x hx hKind
    exact hStray.ends (hRight ▸ (hNext hValidNext hInside x hx).mp hKind)
  · rw [← length_cutRun_eq_one_iff hStray.ne_nil, ← hPieces, List.length_map]

/-- Two digits make up a run with which no token begins, and each of them becomes a token
with a diagnostic. -/
theorem tokenize_digits :
    IsStrayRun .standard ⟨['$', '\x7b'], ['\x7d'], by decide, by decide⟩ ['1', '2'] ['\x7d'] ∧
    ∃ tokens found, (Engine.mk .standard .accumulate).tokenize "$\x7b12\x7d".toList
        (.empty ⟨"test", none⟩) = (.ok tokens, ⟨⟨"test", none⟩, found⟩) ∧
      tokens.map (fun t => (t.kind, t.span, t.text)) =
        [(.beginTag .variable, ⟨0, 2⟩, "$\x7b"), (.unexpected, ⟨2, 3⟩, "1"),
          (.unexpected, ⟨3, 4⟩, "2"), (.endTag .variable, ⟨4, 5⟩, "\x7d")] ∧
      found.map Diagnostic.message = ["unexpected `1`", "unexpected `2`"] := by
  have hStart : Identifier.isStart '1' = false ∧ Identifier.isStart '2' = false := by
    decide +kernel
  refine ⟨⟨by decide, fun text hText hSome => ?_, fun hEnd => hEnd.2.1 (by decide)⟩,
    _, _, tokenize_accumulate .., ?_, ?_⟩
  · obtain rfl | rfl : text = ['1', '2'] ∨ text = ['2'] := by simpa [hSome] using hText
    · exact ⟨⟨'1', rfl, rfl, rfl, hStart.1⟩, by decide, by decide⟩
    · exact ⟨⟨'2', rfl, rfl, rfl, hStart.2⟩, by decide, by decide⟩
  · decide +kernel
  · decide +kernel

end Engine

end Bulletin
