import Bulletin.Proofs.Printing
import Bulletin.Proofs.Tags

/-! The scopes of a document. Openers and closers match as brackets do, whether
or not their tags are well formed, and the tree has what stands between those
that match. -/
namespace Bulletin

open Text

namespace Segment

/-- The element that a text or a variable tag is. -/
def element? : Segment → Option Element
  | text x => some (.literal x.text x.span)
  | s@(tag _ _ _) => s.reference?.map fun (name, span) => .variable name span

/-- The conditional with an opener, its closer, and the elements between them. An
opener that is not well formed heads none. -/
def conditional? (opener : Segment) (inside : List Element) (closer : Segment) :
    Option Element :=
  opener.header?.map fun h =>
    .conditional h.polarity (.variable h.name h.nameSpan) inside (h.span.cover closer.closeSpan)

/-- The complaint about an opener that is never closed. One that is not well
formed was complained about already. -/
def unclosed? (opener : Segment) : Option Complaint :=
  opener.header?.map fun h => ⟨.unclosedIf h.name, h.nameSpan⟩

/-- The complaint about a closer without an opener. -/
def stray (closer : Segment) : Complaint :=
  ⟨.strayEndIf, closer.closeSpan⟩

/-- Segments in which every opener has its closer, and the elements that they are
put together to. Under an opener that is not well formed everything is dropped. -/
inductive Balanced : List Segment → List Element → Prop where
  | nil : Balanced [] []
  | neutral {s : Segment} {rest : List Segment} {es : List Element} (hRole : s.role = .neutral)
      (hRest : Balanced rest es) : Balanced (s :: rest) (s.element?.toList ++ es)
  | scope {opener closer : Segment} {body rest : List Segment} {inside es : List Element}
      (hOpener : opener.role = .opener) (hBody : Balanced body inside)
      (hCloser : closer.role = .closer) (hRest : Balanced rest es) :
      Balanced (opener :: (body ++ closer :: rest))
        ((opener.conditional? inside closer).toList ++ es)

/-- Openers that are never closed, with what is balanced behind each of them. -/
inductive Open : List Segment → List Segment → Prop where
  | nil : Open [] []
  | cons {opener : Segment} {body rest openers : List Segment} {inside : List Element}
      (hOpener : opener.role = .opener) (hBody : Balanced body inside)
      (hRest : Open rest openers) : Open (opener :: (body ++ rest)) (opener :: openers)

/-- `Matched segments closers openers es`: of the segments, `closers` have no
opener and `openers` no closer; `es` are the elements outside of all openers that
are never closed. -/
inductive Matched : List Segment → List Segment → List Segment → List Element → Prop where
  | last {row rest openers : List Segment} {es : List Element} (hRow : Balanced row es)
      (hRest : Open rest openers) : Matched (row ++ rest) [] openers es
  | stray {row rest closers openers : List Segment} {closer : Segment} {es es' : List Element}
      (hRow : Balanced row es) (hCloser : closer.role = .closer)
      (hRest : Matched rest closers openers es') :
      Matched (row ++ closer :: rest) (closer :: closers) openers (es ++ es')

theorem Balanced.append {row rest : List Segment} {es es' : List Element}
    (hRow : Balanced row es) (hRest : Balanced rest es') : Balanced (row ++ rest) (es ++ es') := by
  induction hRow with
  | nil => exact hRest
  | neutral hRole _ ih =>
      rw [List.cons_append, List.append_assoc]
      exact .neutral hRole ih
  | scope hOpener hBody hCloser _ _ ih =>
      rw [List.cons_append, List.append_assoc, List.append_assoc, List.cons_append]
      exact .scope hOpener hBody hCloser ih

theorem Matched.append {row rest closers openers : List Segment} {es es' : List Element}
    (hRow : Balanced row es) (hRest : Matched rest closers openers es') :
    Matched (row ++ rest) closers openers (es ++ es') := by
  cases hRest with
  | last hMore hOpen =>
      rw [← List.append_assoc]
      exact .last (hRow.append hMore) hOpen
  | stray hMore hCloser hRest =>
      rw [← List.append_assoc, ← List.append_assoc]
      exact .stray (hRow.append hMore) hCloser hRest

/-- Openers and closers can always be matched. -/
theorem exists_matched (segments : List Segment) :
    ∃ closers openers es, Matched segments closers openers es := by
  induction segments with
  | nil => exact ⟨[], [], [], .last .nil .nil⟩
  | cons s rest ih =>
      obtain ⟨closers, openers, es, hRest⟩ := ih
      cases hRole : s.role with
      | neutral =>
          have hRow : Balanced [s] _ := .neutral hRole .nil
          exact ⟨closers, openers, _, hRest.append hRow⟩
      | closer => exact ⟨s :: closers, openers, _, .stray .nil hRole hRest⟩
      | opener =>
          cases hRest with
          | last hRow hOpen => exact ⟨[], s :: openers, [], .last .nil (.cons hRole hRow hOpen)⟩
          | @stray row rest closers _ closer inside es hRow hCloser hRest =>
              have hScope : Balanced (s :: (row ++ closer :: [])) _ :=
                .scope hRole hRow hCloser .nil
              have hMatched := hRest.append hScope
              rw [List.cons_append, List.append_assoc] at hMatched
              exact ⟨closers, openers, _, hMatched⟩

end Segment

namespace Segment

/-- What the segments of a row are to the document, complaints apart. -/
def partsOf (segments : List Segment) : List Part :=
  segments.flatMap fun s => s.part?.toList

@[simp]
theorem partsOf_nil : partsOf [] = [] := rfl

@[simp]
theorem partsOf_cons (s : Segment) (segments : List Segment) :
    partsOf (s :: segments) = s.part?.toList ++ partsOf segments :=
  List.flatMap_cons ..

@[simp]
theorem partsOf_append (left right : List Segment) :
    partsOf (left ++ right) = partsOf left ++ partsOf right :=
  List.flatMap_append

theorem part?_of_opener {s : Segment} (hRole : s.role = .opener) :
    s.part? = some (s.header?.elim .openBroken fun h =>
      .openIf h.polarity h.name h.nameSpan h.span) := by
  cases s with
  | text x => cases hRole
  | tag opening inner last => simp [part?, hRole]

theorem part?_of_closer {s : Segment} (hRole : s.role = .closer) :
    s.part? = some (.close s.closeSpan) := by
  cases s with
  | text x => cases hRole
  | tag opening inner last => simp [part?, hRole]

theorem part?_ne_complaint (s : Segment) (c : Complaint) : s.part? ≠ some (.complaint c) := by
  cases s with
  | text x => simp [part?]
  | tag opening inner last =>
      cases hRole : role (.tag opening inner last) with
      | opener =>
          rw [part?_of_opener hRole]
          cases header? (.tag opening inner last) <;> simp
      | closer => simp [part?_of_closer hRole]
      | neutral => simp [part?, hRole]

end Segment

namespace Assembly

variable {a : Assembly} {segments row : List Segment} {parts : List Part} {es : List Element}

theorem growAll_complaints (a : Assembly) (cs : List Complaint) :
    a.growAll (cs.map .complaint) = a := by
  induction cs with
  | nil => rfl
  | cons c cs ih => exact ih

theorem faultsAll_complaints (a : Assembly) (cs : List Complaint) :
    a.faultsAll (cs.map .complaint) = cs := by
  induction cs with
  | nil => rfl
  | cons c cs ih => exact congrArg (c :: ·) ih

/-- The tree does not depend on the complaints among the parts. -/
theorem growAll_parted (hParts : Segment.Parted segments parts) (a : Assembly) :
    a.growAll parts = a.growAll (Segment.partsOf segments) := by
  induction hParts generalizing a with
  | nil => rfl
  | cons _ _ _ ih =>
      rw [growAll_append, growAll_append, growAll_complaints, ih, Segment.partsOf_cons,
        growAll_append]

/-- A segment by itself is at most a closer without an opener. -/
theorem strayEndIf_of_mem_faultsAll {s : Segment} {c : Complaint}
    (hMem : c ∈ a.faultsAll s.part?.toList) : c.problem = .strayEndIf := by
  cases hPart : s.part? with
  | none => simp [hPart, faultsAll] at hMem
  | some p =>
      rw [hPart] at hMem
      cases p with
      | complaint c => exact absurd hPart (s.part?_ne_complaint c)
      | close span =>
          by_cases hScopes : a.scopes.isEmpty = true
          · simp [faultsAll, faults, hScopes] at hMem
            exact hMem ▸ rfl
          · simp [faultsAll, faults, hScopes] at hMem
      | _ => simp [faultsAll, faults] at hMem

/-- All complaints about the parts are about single tags, or about closers without
an opener. -/
theorem faultsAll_parted (hParts : Segment.Parted segments parts) (a : Assembly) :
    (a.faultsAll parts).filter (fun c => c.problem = .strayEndIf) =
        a.faultsAll (Segment.partsOf segments) ∧
      (∀ c ∈ a.faultsAll parts, ∀ name, c.problem ≠ .unclosedIf name) ∧
      (a.faultsAll parts = [] → ∀ s ∈ segments, s.IsSound) := by
  induction hParts generalizing a with
  | nil => simp [faultsAll]
  | @cons s segments cs parts hLocal hSound _ ih =>
      obtain ⟨hStrays, hClosed, hRest⟩ := ih (a.growAll s.part?.toList)
      have hHere : ∀ c ∈ a.faultsAll s.part?.toList, c.problem = .strayEndIf :=
        fun c hMem => strayEndIf_of_mem_faultsAll hMem
      have hTag : ∀ c ∈ cs, c.problem ≠ .strayEndIf := by
        intro c hc hStray
        have := hLocal c hc
        simp_all [Problem.IsLocal]
      have hStray : (a.faultsAll s.part?.toList).filter (fun c => c.problem = .strayEndIf) = _ :=
        List.filter_eq_self.mpr (by simpa using hHere)
      have hFaults : a.faultsAll (cs.map .complaint ++ s.part?.toList ++ parts) =
          cs ++ a.faultsAll s.part?.toList ++ (a.growAll s.part?.toList).faultsAll parts := by
        rw [faultsAll_append, faultsAll_append, growAll_append, growAll_complaints,
          faultsAll_complaints]
      rw [hFaults]
      refine ⟨?_, ?_, ?_⟩
      · rw [List.filter_append, List.filter_append, hStrays, hStray, Segment.partsOf_cons,
          faultsAll_append, List.filter_eq_nil_iff.mpr (by simpa using hTag), List.nil_append]
      · intro c hc name hUnclosed
        rcases List.mem_append.mp hc with hc | hc
        · rcases List.mem_append.mp hc with hc | hc
          · have := hLocal c hc
            simp_all [Problem.IsLocal]
          · exact absurd (hHere c hc) (by simp [hUnclosed])
        · exact hClosed c hc name hUnclosed
      · intro hNone
        obtain ⟨hFirst, hMore⟩ := List.append_eq_nil_iff.mp hNone
        exact List.forall_mem_cons.mpr
          ⟨hSound (List.append_eq_nil_iff.mp hFirst).1, hRest hMore⟩

theorem growAll_neutral {s : Segment} (hRole : s.role = .neutral) (a : Assembly) :
    a.growAll s.part?.toList = a.addAll s.element?.toList ∧ a.faultsAll s.part?.toList = [] := by
  cases s with
  | text x => exact ⟨rfl, rfl⟩
  | tag opening inner last =>
      simp only [Segment.part?, hRole, Segment.element?]
      cases Segment.reference? (.tag opening inner last) <;> exact ⟨rfl, rfl⟩

theorem addAll_append (a : Assembly) (es es' : List Element) :
    a.addAll (es ++ es') = (a.addAll es).addAll es' :=
  List.foldl_append

theorem addAll_enter_broken (a : Assembly) (es : List Element) :
    (a.enter .broken).addAll es = a.enter .broken := by
  induction es with
  | nil => rfl
  | cons e es ih => exact ih

/-- What stands in a broken conditional is lost when it is closed. -/
theorem growAll_broken {inside more : List Part} {closing : Span}
    (hBody : (a.enter .broken).growAll inside = a.enter .broken) :
    a.growAll (.openBroken :: (inside ++ .close closing :: more)) = a.growAll more := by
  rw [growAll_cons, growAll_append, grow, hBody, growAll_cons]
  rfl

theorem faultsAll_broken {inside more : List Part} {closing : Span}
    (hBody : (a.enter .broken).growAll inside = a.enter .broken) :
    a.faultsAll (.openBroken :: (inside ++ .close closing :: more)) =
      (a.enter .broken).faultsAll inside ++ a.faultsAll more := by
  rw [faultsAll, faultsAll_append, grow, hBody, faultsAll]
  rfl

/-- Segments in which every opener has its closer add their elements, and there is
nothing to complain about in their scopes. -/
theorem growAll_balanced (hRow : Segment.Balanced row es) (a : Assembly) :
    a.growAll (Segment.partsOf row) = a.addAll es ∧ a.faultsAll (Segment.partsOf row) = [] := by
  induction hRow generalizing a with
  | nil => exact ⟨rfl, rfl⟩
  | @neutral s rest es hRole _ ih =>
      obtain ⟨hGrow, hFaults⟩ := growAll_neutral hRole a
      obtain ⟨hMore, hSilent⟩ := ih (a.addAll s.element?.toList)
      rw [Segment.partsOf_cons, growAll_append, faultsAll_append, hGrow, hFaults, hMore, hSilent,
        addAll_append]
      exact ⟨rfl, rfl⟩
  | @scope opener closer body rest inside es hOpener _ hCloser _ ihBody ih =>
      rw [Segment.partsOf_cons, Segment.partsOf_append, Segment.partsOf_cons,
        Segment.part?_of_opener hOpener, Segment.part?_of_closer hCloser, Segment.conditional?]
      cases hHeader : opener.header? with
      | none =>
          obtain ⟨hBody, hInside⟩ := ihBody (a.enter .broken)
          obtain ⟨hMore, hBehind⟩ := ih a
          rw [addAll_enter_broken] at hBody
          refine ⟨(growAll_broken hBody).trans hMore, (faultsAll_broken hBody).trans ?_⟩
          rw [hInside]
          exact hBehind
      | some h =>
          obtain ⟨hBody, hInside⟩ :=
            ihBody (a.enter (.conditional h.polarity h.name h.nameSpan h.span []))
          rw [addAll_enter, List.append_nil] at hBody
          obtain ⟨hMore, hBehind⟩ := ih (a.add (.conditional h.polarity (.variable h.name h.nameSpan)
            inside (h.span.cover closer.closeSpan)))
          refine ⟨(growAll_conditional hBody).trans hMore, (faultsAll_conditional hBody).trans ?_⟩
          rw [hInside]
          exact hBehind

/-- What is balanced behind an opener goes into its scope. -/
theorem exists_enter_opener {opener : Segment} (hOpener : opener.role = .opener) (a : Assembly)
    (inside : List Element) :
    ∃ p scope, opener.part? = some p ∧ a.faults p = [] ∧
      (a.grow p).addAll inside = a.enter scope ∧ unclosed? scope = opener.unclosed? := by
  rw [Segment.part?_of_opener hOpener, Segment.unclosed?]
  cases opener.header? with
  | none => exact ⟨_, .broken, rfl, rfl, addAll_enter_broken a inside, rfl⟩
  | some h => exact ⟨_, .conditional .., rfl, rfl, addAll_enter .., rfl⟩

/-- Openers that are never closed add no elements, and are left open. -/
theorem growAll_open {openers : List Segment} (hOpen : Segment.Open segments openers)
    (a : Assembly) :
    a.faultsAll (Segment.partsOf segments) = [] ∧
      (a.growAll (Segment.partsOf segments)).elements = a.elements ∧
      (a.growAll (Segment.partsOf segments)).scopes.reverse.filterMap unclosed? =
        a.scopes.reverse.filterMap unclosed? ++ openers.filterMap Segment.unclosed? := by
  induction hOpen generalizing a with
  | nil => exact ⟨rfl, rfl, (List.append_nil _).symm⟩
  | @cons opener body rest openers inside hOpener hBody _ ih =>
      obtain ⟨p, scope, hPart, hFaults, hEnter, hUnclosed⟩ :=
        exists_enter_opener hOpener a inside
      obtain ⟨hGrow, hSilent⟩ := growAll_balanced hBody (a.grow p)
      obtain ⟨hRest, hElements, hScopes⟩ := ih (a.enter scope)
      rw [hEnter] at hGrow
      have hParts : Segment.partsOf (opener :: (body ++ rest)) =
          p :: (Segment.partsOf body ++ Segment.partsOf rest) := by simp [hPart]
      rw [hParts, faultsAll, faultsAll_append, growAll_cons, growAll_append, hFaults, hSilent,
        hGrow, hRest]
      refine ⟨rfl, hElements, hScopes.trans ?_⟩
      simp only [enter, List.reverse_cons, List.filterMap_append, List.filterMap_cons,
        List.filterMap_nil, hUnclosed, List.append_assoc]
      cases opener.unclosed? <;> rfl

/-- Outside of all scopes, the complaints are about closers without an opener. -/
theorem growAll_matched {closers openers : List Segment}
    (hMatched : Segment.Matched segments closers openers es) (log : Log)
    (elements : List Element) :
    faultsAll ⟨log, [], elements⟩ (Segment.partsOf segments) = closers.map Segment.stray ∧
      (growAll ⟨log, [], elements⟩ (Segment.partsOf segments)).elements =
        es.reverse ++ elements ∧
      (growAll ⟨log, [], elements⟩ (Segment.partsOf segments)).scopes.reverse.filterMap unclosed? =
        openers.filterMap Segment.unclosed? := by
  induction hMatched generalizing elements with
  | @last row rest openers es hRow hOpen =>
      obtain ⟨hGrow, hSilent⟩ := growAll_balanced hRow ⟨log, [], elements⟩
      rw [addAll_outside] at hGrow
      rw [Segment.partsOf_append, faultsAll_append, growAll_append, hGrow, hSilent]
      exact growAll_open hOpen _
  | @stray row rest closers openers closer es es' hRow hCloser _ ih =>
      obtain ⟨hGrow, hSilent⟩ := growAll_balanced hRow ⟨log, [], elements⟩
      rw [addAll_outside] at hGrow
      obtain ⟨hFaults, hElements, hScopes⟩ := ih (es.reverse ++ elements)
      rw [Segment.partsOf_append, Segment.partsOf_cons, Segment.part?_of_closer hCloser,
        faultsAll_append, growAll_append, hGrow, hSilent]
      refine ⟨?_, hElements.trans (by simp), hScopes⟩
      exact congrArg (closer.stray :: ·) hFaults

end Assembly

namespace Engine

variable {g : Engine} {source : List Char} {segments closers openers : List Segment}
  {es : List Element}

/-- What matching the openers and closers of a source tells of its tree and of the
complaints about it. -/
theorem complaints_of_matched (hParts : Segment.Parted segments (g.parts source))
    (hMatched : Segment.Matched segments closers openers es) :
    g.elements source = es ∧ ∃ others,
      g.complaints source = others ++ openers.filterMap Segment.unclosed? ∧
      others.filter (fun c => c.problem = .strayEndIf) = closers.map Segment.stray ∧
      (∀ c ∈ others, ∀ name, c.problem ≠ .unclosedIf name) ∧
      (others = [] → ∀ s ∈ segments, s.IsSound) := by
  obtain ⟨hStray, hElements, hScopes⟩ :=
    Assembly.growAll_matched hMatched (.empty ⟨"", none⟩) []
  obtain ⟨hStrays, hClosed, hSound⟩ :=
    Assembly.faultsAll_parted hParts (.start (.empty ⟨"", none⟩))
  have hGrow := Assembly.growAll_parted hParts (.start (.empty ⟨"", none⟩))
  refine ⟨?_, _, ?_, hStrays.trans hStray, hClosed, hSound⟩
  · rw [elements, assembly, hGrow]
    exact (congrArg List.reverse hElements).trans (by simp)
  · rw [complaints, unclosed, assembly, hGrow]
    exact congrArg _ hScopes

/-- Recovery keeps the scopes of a document. In accumulate mode, whatever way the
openers and closers of a source match as brackets, the tree has what stands
between and outside of those that match. The closers without an opener are
complained about where they stand. The openers without a closer come last,
outermost first, and only those that are well formed. -/
theorem parseWith_scopes (m : Markup) (source : List Char) (log : Log) :
    ∃ segments, m.lexemes source = segments.flatMap Segment.lexemes ∧
      Segmented m source segments ∧
      (∃ closers openers es, Segment.Matched segments closers openers es) ∧
      ∀ closers openers es, Segment.Matched segments closers openers es →
        ∃ others,
          (Engine.mk m .accumulate).parseWith source log =
            (.ok ⟨log.document, source, es⟩,
              log.complainAll source (others ++ openers.filterMap Segment.unclosed?)) ∧
          others.filter (fun c => c.problem = .strayEndIf) = closers.map Segment.stray ∧
          ∀ c ∈ others, ∀ name, c.problem ≠ .unclosedIf name := by
  obtain ⟨segments, hRun, hSegments, hParts⟩ := (Engine.mk m .accumulate).exists_parted source
  refine ⟨segments, hRun, hSegments, Segment.exists_matched segments, ?_⟩
  intro closers openers es hMatched
  obtain ⟨hElements, others, hComplaints, hStrays, hClosed, -⟩ :=
    complaints_of_matched hParts hMatched
  refine ⟨others, ?_, hStrays, hClosed⟩
  rw [parseWith_accumulate, hElements, hComplaints]

end Engine

end Bulletin
