import Bulletin.Markup

/-! Where tags begin. The openings that a reader finds with what it remembers
are those that trying every place in turn would find. -/
namespace Bulletin

open Text

namespace Text

theorem isSome_stripped?_iff {pattern text : List Char} :
    (stripped? pattern text).isSome = true ↔ pattern <+: text := by
  rw [Option.isSome_iff_exists]
  constructor
  · rintro ⟨rest, hRest⟩
    exact ⟨rest, (stripped?_eq_some_iff.mp hRest).symm⟩
  · rintro ⟨rest, hRest⟩
    exact ⟨rest, stripped?_eq_some_iff.mpr hRest.symm⟩

theorem byteLength_le_of_isPrefix {left text : List Char} (hPrefix : left <+: text) :
    byteLength left ≤ byteLength text := by
  obtain ⟨right, rfl⟩ := hPrefix
  simp

/-- A prefix of as many bytes is the whole text. -/
theorem eq_of_isPrefix_of_byteLength {left text : List Char} (hPrefix : left <+: text)
    (hLength : byteLength text ≤ byteLength left) : left = text := by
  obtain ⟨right, rfl⟩ := hPrefix
  cases right with
  | nil => simp
  | cons c rest =>
      have := c.utf8Size_pos
      simp only [byteLength_append, byteLength_cons] at hLength
      omega

end Text

namespace Markup

variable {m : Markup} {kind : TagKind} {d : Delimiters} {offset : Nat}
  {text left right rest : List Char} {o : Opening}

/-- Some opening delimiter stands at the beginning of the text. -/
def Opens (m : Markup) (text : List Char) : Prop :=
  ∃ kind d, m.delimiters? kind = some d ∧ d.opening <+: text

/-- No opening delimiter stands anywhere in the text before `rest`, even if it
would end in `rest`. -/
def Untouched (m : Markup) (text rest : List Char) : Prop :=
  ∀ left right, text = left ++ right → right ≠ [] → ¬m.Opens (right ++ rest)

theorem not_opens_nil (m : Markup) : ¬m.Opens [] := by
  rintro ⟨kind, d, _, hPrefix⟩
  exact d.opening_ne_nil (List.prefix_nil.mp hPrefix)

@[simp]
theorem untouched_nil (m : Markup) (rest : List Char) : m.Untouched [] rest := by
  intro left right hText hRight
  exact absurd (List.append_eq_nil_iff.mp hText.symm).2 hRight

theorem untouched_cons {c : Char} :
    m.Untouched (c :: text) rest ↔ ¬m.Opens (c :: (text ++ rest)) ∧ m.Untouched text rest := by
  constructor
  · intro hText
    refine ⟨hText [] (c :: text) rfl (by simp), ?_⟩
    intro left right hSplit hRight
    exact hText (c :: left) right (by simp [hSplit]) hRight
  · rintro ⟨hHere, hLater⟩ left right hSplit hRight
    cases left with
    | nil =>
        obtain rfl : c :: text = right := hSplit
        exact hHere
    | cons c' left =>
        obtain ⟨-, hText⟩ := List.cons.inj hSplit
        exact hLater left right hText hRight

/-- Every text goes on untouched up to its end or to the first opening. -/
theorem exists_untouched (m : Markup) (text : List Char) :
    ∃ left right, text = left ++ right ∧ m.Untouched left right ∧
      (right = [] ∨ m.Opens right) := by
  induction text with
  | nil => exact ⟨[], [], rfl, m.untouched_nil [], Or.inl rfl⟩
  | cons c text ih =>
      by_cases hHere : m.Opens (c :: text)
      · exact ⟨[], c :: text, rfl, m.untouched_nil _, Or.inr hHere⟩
      · obtain ⟨left, right, rfl, hLeft, hRight⟩ := ih
        exact ⟨c :: left, right, rfl, untouched_cons.mpr ⟨hHere, hLeft⟩, hRight⟩

/-- A text goes on untouched to its end or to an opening in one way only. -/
theorem untouched_inj {left' right' : List Char} (hText : left ++ right = left' ++ right')
    (hLeft : m.Untouched left right) (hRight : right = [] ∨ m.Opens right)
    (hLeft' : m.Untouched left' right') (hRight' : right' = [] ∨ m.Opens right') :
    left = left' ∧ right = right' := by
  induction left generalizing left' with
  | nil =>
      cases left' with
      | nil => exact ⟨rfl, hText⟩
      | cons c left' =>
          obtain rfl : right = c :: (left' ++ right') := hText
          exact absurd (hRight.resolve_left (by simp)) (untouched_cons.mp hLeft').1
  | cons c left ih =>
      cases left' with
      | nil =>
          obtain rfl : c :: (left ++ right) = right' := hText
          exact absurd (hRight'.resolve_left (by simp)) (untouched_cons.mp hLeft).1
      | cons c' left' =>
          obtain ⟨rfl, hRest⟩ := List.cons.inj hText
          obtain ⟨rfl, rfl⟩ := ih hRest (untouched_cons.mp hLeft).2 (untouched_cons.mp hLeft').2
          exact ⟨rfl, rfl⟩

theorem kindOpeningAt?_eq_some_iff :
    m.kindOpeningAt? kind offset text = some o ↔
      ∃ d, m.delimiters? kind = some d ∧ d.opening <+: text ∧ o = ⟨kind, d, offset⟩ := by
  unfold kindOpeningAt?
  cases hKind : m.delimiters? kind with
  | none => simp
  | some d =>
      simp only [isSome_stripped?_iff, Option.ite_none_right_eq_some, Option.some.injEq,
        exists_eq_left']
      exact and_congr_right fun _ => eq_comm

/-- What is found at a place is one of the configured openings. -/
theorem openingAt?_sound (hOpening : m.openingAt? offset text = some o) :
    m.delimiters? o.kind = some o.delimiters ∧ o.start = offset ∧
      o.delimiters.opening <+: text := by
  have hKind (kind : TagKind) (hFound : m.kindOpeningAt? kind offset text = some o) :
      m.delimiters? o.kind = some o.delimiters ∧ o.start = offset ∧
        o.delimiters.opening <+: text := by
    obtain ⟨d, hd, hPrefix, rfl⟩ := kindOpeningAt?_eq_some_iff.mp hFound
    exact ⟨hd, rfl, hPrefix⟩
  unfold openingAt? at hOpening
  cases hv : m.kindOpeningAt? .variable offset text with
  | none =>
      rw [hv] at hOpening
      exact hKind .directive hOpening
  | some v =>
      cases hd : m.kindOpeningAt? .directive offset text with
      | none =>
          rw [hv, hd] at hOpening
          exact hKind .variable (hv.trans hOpening)
      | some d =>
          rw [hv, hd] at hOpening
          simp only [Opening.prefer?, Opening.prefer, Option.some.injEq] at hOpening
          split at hOpening
          · exact hKind .variable (hv.trans (congrArg some hOpening))
          · exact hKind .directive (hd.trans (congrArg some hOpening))

theorem openingAt?_eq_none_iff : m.openingAt? offset text = none ↔ ¬m.Opens text := by
  constructor
  · rintro hNone ⟨kind, d, hd, hPrefix⟩
    have hFound : m.kindOpeningAt? kind offset text = some ⟨kind, d, offset⟩ :=
      kindOpeningAt?_eq_some_iff.mpr ⟨d, hd, hPrefix, rfl⟩
    unfold openingAt? at hNone
    cases kind <;> rw [hFound] at hNone
    · cases hOther : m.kindOpeningAt? .directive offset text <;>
        simp [hOther, Opening.prefer?] at hNone
    · cases hOther : m.kindOpeningAt? .variable offset text <;>
        simp [hOther, Opening.prefer?] at hNone
  · intro hNot
    cases hFound : m.openingAt? offset text with
    | none => rfl
    | some o =>
        obtain ⟨hd, _, hPrefix⟩ := openingAt?_sound hFound
        exact absurd ⟨o.kind, o.delimiters, hd, hPrefix⟩ hNot

theorem isSome_openingAt?_iff : (m.openingAt? offset text).isSome = true ↔ m.Opens text := by
  rw [← Option.ne_none_iff_isSome, Ne, openingAt?_eq_none_iff, Classical.not_not]

/-- Where an opening stands that every other one there is a part of, it is the
one that is found. -/
theorem openingAt?_of_longest (hd : m.delimiters? kind = some d) (hPrefix : d.opening <+: text)
    (hLongest : ∀ other e, m.delimiters? other = some e → e.opening <+: text →
      e.opening <+: d.opening) :
    m.openingAt? offset text = some ⟨kind, d, offset⟩ := by
  have hHere : m.kindOpeningAt? kind offset text = some ⟨kind, d, offset⟩ :=
    kindOpeningAt?_eq_some_iff.mpr ⟨d, hd, hPrefix, rfl⟩
  have hOther (other : TagKind) (o : Opening)
      (hFound : m.kindOpeningAt? other offset text = some o) :
      o.start = offset ∧ o.delimiters.opening <+: d.opening ∧
        m.delimiters? other = some o.delimiters := by
    obtain ⟨e, he, hText, rfl⟩ := kindOpeningAt?_eq_some_iff.mp hFound
    exact ⟨rfl, hLongest other e he hText, he⟩
  unfold openingAt?
  cases kind with
  | «variable» =>
      rw [hHere]
      cases hFound : m.kindOpeningAt? .directive offset text with
      | none => rfl
      | some o =>
          obtain ⟨hStart, hPart, _⟩ := hOther .directive o hFound
          have := byteLength_le_of_isPrefix hPart
          simp [Opening.prefer?, Opening.prefer, Opening.stop, hStart, this]
  | directive =>
      rw [hHere]
      cases hFound : m.kindOpeningAt? .variable offset text with
      | none => rfl
      | some o =>
          obtain ⟨hStart, hPart, ho⟩ := hOther .variable o hFound
          have hShorter : ¬byteLength d.opening ≤ byteLength o.delimiters.opening := by
            intro hLength
            exact m.openings_differ _ ho _ hd (eq_of_isPrefix_of_byteLength hPart hLength)
          simp [Opening.prefer?, Opening.prefer, Opening.stop, hStart, hShorter]

theorem firstOpening?_append (hLeft : m.Untouched left right) :
    m.firstOpening? offset (left ++ right) =
      m.firstOpening? (offset + byteLength left) right := by
  induction left generalizing offset with
  | nil => simp
  | cons c left ih =>
      obtain ⟨hHere, hLater⟩ := untouched_cons.mp hLeft
      rw [List.cons_append, firstOpening?, openingAt?_eq_none_iff.mpr hHere, Option.none_or,
        ih hLater, byteLength_cons, Nat.add_assoc]

theorem firstOpening?_of_opens (hText : m.Opens text) :
    m.firstOpening? offset text = m.openingAt? offset text := by
  cases text with
  | nil => exact absurd hText m.not_opens_nil
  | cons c rest =>
      obtain ⟨o, ho⟩ := Option.isSome_iff_exists.mp (isSome_openingAt?_iff.mpr hText)
      rw [firstOpening?, ho, Option.some_or]

end Markup

section occurrence

variable {pattern left right : List Char} {offset place : Nat}

theorem le_of_occurrence? {text : List Char} (hPlace : occurrence? pattern offset text = some place) :
    offset ≤ place := by
  fun_induction occurrence? pattern offset text with
  | case1 => simp_all
  | case2 => simp_all
  | case3 => simp_all
  | case4 offset c rest hHere ih =>
      have := ih hPlace
      omega

/-- An occurrence that lies ahead of a later place is the first one from there
on too. -/
theorem occurrence?_append_of_le
    (hPlace : occurrence? pattern offset (left ++ right) = some place)
    (hAhead : offset + byteLength left ≤ place) :
    occurrence? pattern (offset + byteLength left) right = some place := by
  induction left generalizing offset with
  | nil => simpa using hPlace
  | cons c left ih =>
      simp only [List.cons_append, occurrence?, byteLength_cons] at hPlace hAhead ⊢
      have := c.utf8Size_pos
      split at hPlace
      · obtain rfl := Option.some.inj hPlace
        omega
      · rw [← Nat.add_assoc]
        exact ih hPlace (by omega)

theorem occurrence?_append_eq_none
    (hNone : occurrence? pattern offset (left ++ right) = none) :
    occurrence? pattern (offset + byteLength left) right = none := by
  induction left generalizing offset with
  | nil => simpa using hNone
  | cons c left ih =>
      simp only [List.cons_append, occurrence?, byteLength_cons] at hNone ⊢
      split at hNone
      · cases hNone
      · rw [← Nat.add_assoc]
        exact ih hNone

end occurrence

namespace Sighting

variable {pattern left right : List Char} {offset : Nat} {s : Sighting}

/-- What is known is true of the text, which stands at the offset. Of an
occurrence that lies behind nothing is asked. -/
def Valid (pattern : List Char) (offset : Nat) (text : List Char) : Sighting → Prop
  | notSought => True
  | absent => occurrence? pattern offset text = none
  | found place => offset ≤ place → occurrence? pattern offset text = some place

/-- Knowledge stays true while the reader moves on. -/
theorem Valid.advance (hValid : s.Valid pattern offset (left ++ right)) :
    s.Valid pattern (offset + byteLength left) right := by
  cases s with
  | notSought => trivial
  | absent => exact occurrence?_append_eq_none hValid
  | found place =>
      intro hAhead
      exact occurrence?_append_of_le (hValid (by omega)) hAhead

theorem valid_look (pattern : List Char) (offset : Nat) (text : List Char) :
    (look pattern offset text).Valid pattern offset text := by
  unfold look
  cases hPlace : occurrence? pattern offset text with
  | none => exact hPlace
  | some place => exact fun _ => hPlace

/-- What is remembered is what looking afresh would show. -/
theorem Valid.renew_eq {text : List Char} (hValid : s.Valid pattern offset text) :
    s.renew pattern offset text = look pattern offset text := by
  cases s with
  | notSought => rfl
  | absent =>
      have hNone : occurrence? pattern offset text = none := hValid
      simp [renew, look, hNone]
  | found place =>
      by_cases hAhead : offset ≤ place
      · have hPlace : occurrence? pattern offset text = some place := hValid hAhead
        simp [renew, look, hAhead, hPlace]
      · simp [renew, hAhead]

end Sighting

/-- The first opening of one kind in the text. -/
def Markup.soughtOpening? (m : Markup) (kind : TagKind) (offset : Nat) (text : List Char) :
    Option Opening :=
  match m.delimiters? kind with
  | none => none
  | some d => (Sighting.look d.opening offset text).opening? kind d

namespace Markup

variable {m : Markup} {kind : TagKind} {offset : Nat} {o : Opening}

theorem soughtOpening?_nil (m : Markup) (kind : TagKind) (offset : Nat) :
    m.soughtOpening? kind offset [] = none := by
  unfold soughtOpening?
  cases m.delimiters? kind with
  | none => rfl
  | some d => simp [Sighting.look, occurrence?, d.opening_ne_nil, Sighting.opening?]

theorem soughtOpening?_cons (m : Markup) (kind : TagKind) (offset : Nat) (c : Char)
    (rest : List Char) :
    m.soughtOpening? kind offset (c :: rest) =
      (m.kindOpeningAt? kind offset (c :: rest)).or
        (m.soughtOpening? kind (offset + c.utf8Size) rest) := by
  unfold soughtOpening? kindOpeningAt?
  cases m.delimiters? kind with
  | none => rfl
  | some d =>
      by_cases hHere : (stripped? d.opening (c :: rest)).isSome = true
      · simp [Sighting.look, occurrence?, Sighting.opening?, hHere]
      · simp [Sighting.look, occurrence?, hHere]

theorem le_start_of_soughtOpening? {text : List Char}
    (hFound : m.soughtOpening? kind offset text = some o) : offset ≤ o.start := by
  unfold soughtOpening? at hFound
  cases hd : m.delimiters? kind with
  | none => simp [hd] at hFound
  | some d =>
      cases hPlace : occurrence? d.opening offset text with
      | none => simp [hd, Sighting.look, hPlace, Sighting.opening?] at hFound
      | some place =>
          simp only [hd, Sighting.look, hPlace, Sighting.opening?, Option.some.injEq] at hFound
          subst hFound
          exact le_of_occurrence? hPlace

end Markup

/-- Of two pairs of openings, one pair behind the other, the first pair that has
one decides. -/
private theorem prefer?_or {here here' later later' : Option Opening} {offset : Nat}
    (hHere : ∀ o ∈ here, o.start = offset) (hHere' : ∀ o ∈ here', o.start = offset)
    (hLater : ∀ o ∈ later, offset < o.start) (hLater' : ∀ o ∈ later', offset < o.start) :
    Opening.prefer? (here.or later) (here'.or later') =
      (Opening.prefer? here here').or (Opening.prefer? later later') := by
  cases here with
  | none =>
      cases here' with
      | none => simp [Opening.prefer?]
      | some b =>
          cases later with
          | none => simp [Opening.prefer?]
          | some a =>
              have ha := hLater a rfl
              have hb := hHere' b rfl
              have hOrder : ¬a.start < b.start := by omega
              have hDiffer : ¬a.start = b.start := by omega
              simp [Opening.prefer?, Opening.prefer, hOrder, hDiffer]
  | some a =>
      cases here' with
      | some b => simp [Opening.prefer?]
      | none =>
          cases later' with
          | none => simp [Opening.prefer?]
          | some b =>
              have ha := hHere a rfl
              have hb := hLater' b rfl
              have hOrder : a.start < b.start := by omega
              simp [Opening.prefer?, Opening.prefer, hOrder]

/-- The first opening of all is the first of one kind or of the other. -/
theorem Markup.firstOpening?_eq_prefer? (m : Markup) (offset : Nat) (text : List Char) :
    m.firstOpening? offset text =
      Opening.prefer? (m.soughtOpening? .variable offset text)
        (m.soughtOpening? .directive offset text) := by
  induction text generalizing offset with
  | nil => simp [firstOpening?, soughtOpening?_nil, Opening.prefer?]
  | cons c rest ih =>
      have hHere (kind : TagKind) :
          ∀ o ∈ m.kindOpeningAt? kind offset (c :: rest), o.start = offset := by
        intro o ho
        obtain ⟨d, _, _, rfl⟩ := kindOpeningAt?_eq_some_iff.mp ho
        rfl
      have hLater (kind : TagKind) :
          ∀ o ∈ m.soughtOpening? kind (offset + c.utf8Size) rest, offset < o.start := by
        intro o ho
        have := le_start_of_soughtOpening? ho
        have := c.utf8Size_pos
        omega
      rw [firstOpening?, ih, soughtOpening?_cons, soughtOpening?_cons,
        prefer?_or (hHere .variable) (hHere .directive) (hLater .variable) (hLater .directive)]
      rfl

namespace Sightings

variable {m : Markup} {offset : Nat} {s : Sightings}

/-- What is known of both openings is true of the text. -/
structure Valid (m : Markup) (offset : Nat) (text : List Char) (s : Sightings) : Prop where
  nextVariable : ∀ d ∈ m.variables?, s.nextVariable.Valid d.opening offset text
  nextDirective : ∀ d ∈ m.directives?, s.nextDirective.Valid d.opening offset text

theorem valid_unseen (m : Markup) (offset : Nat) (text : List Char) :
    unseen.Valid m offset text :=
  ⟨fun _ _ => trivial, fun _ _ => trivial⟩

theorem Valid.advance {left right : List Char} (hValid : s.Valid m offset (left ++ right)) :
    s.Valid m (offset + byteLength left) right :=
  ⟨fun d hd => (hValid.nextVariable d hd).advance,
    fun d hd => (hValid.nextDirective d hd).advance⟩

private theorem next?_eq {text : List Char} (kind : TagKind) {sighting : Sighting}
    (hValid : ∀ d ∈ m.delimiters? kind, sighting.Valid d.opening offset text) :
    (next? m kind offset text sighting).1 = m.soughtOpening? kind offset text ∧
      ∀ d ∈ m.delimiters? kind,
        (next? m kind offset text sighting).2.Valid d.opening offset text := by
  unfold next? Markup.soughtOpening?
  cases hd : m.delimiters? kind with
  | none => simp
  | some d =>
      have hLook := (hValid d hd).renew_eq
      simp only [hLook, Option.mem_def, Option.some.injEq, forall_eq', true_and]
      exact Sighting.valid_look d.opening offset text

/-- With what it remembers the reader finds the same opening as without, and it
remembers nothing wrong afterwards. -/
theorem Valid.first? {text : List Char} (hValid : s.Valid m offset text) :
    (s.first? m offset text).1 = m.firstOpening? offset text ∧
      (s.first? m offset text).2.Valid m offset text := by
  have hVariable := next?_eq .variable hValid.nextVariable
  have hDirective := next?_eq .directive hValid.nextDirective
  refine ⟨?_, ⟨hVariable.2, hDirective.2⟩⟩
  rw [Markup.firstOpening?_eq_prefer?, ← hVariable.1, ← hDirective.1]
  rfl

end Sightings

end Bulletin
