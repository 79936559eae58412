import Bulletin.Control.Audit
import Bulletin.Proofs.Supply
import Bulletin.Proofs.Versions

/-! What becomes of a block of version 200 if it is read as version 300. It is the
same block with nothing added, an audit finds the same, and a template that rendered
before renders to the same text. -/
namespace Bulletin

namespace Template

variable {t : Template} {k k' : Context} {pieces : List Piece} {parts : List Part} {text : String}

/-- Pieces that have a text refer to bound names only. -/
theorem bound_of_renderPieces (hRender : t.renderPieces k pieces = .ok text) {name : String}
    {span : Span} (hPiece : .reference name span ∈ pieces) : ∃ v, k.get? name = some v := by
  obtain ⟨texts, hPrints, -⟩ := renderPieces_eq_ok_iff.mp hRender
  obtain ⟨first, hFirst⟩ : ∃ first, (Piece.reference name span).Prints k first := by
    clear hRender
    induction hPrints with
    | nil => cases hPiece
    | cons hHere _ ih =>
        rcases List.mem_cons.mp hPiece with rfl | hPiece
        · exact ⟨_, hHere⟩
        · exact ih hPiece
  cases hFirst with
  | reference hBound => exact ⟨_, hBound⟩

/-- A template that renders in a context renders to the same text in every context
that has the same values for its names, and possibly more of them. -/
theorem render_of_more (hFrom : ∀ e ∈ t.elements, e.From parts)
    (hMore : ∀ name ∈ t.variableNames, ∀ v, k.get? name = some v → k'.get? name = some v)
    (hRender : t.render k = .ok text) : t.render k' = .ok text := by
  cases hResolve : t.resolve k with
  | error e =>
      rw [render, hResolve] at hRender
      cases hRender
  | ok pieces =>
      have hPieces : t.renderPieces k pieces = .ok text := by
        rw [render, hResolve] at hRender
        exact hRender
      have hResolve' : t.resolve k' = .ok pieces := by
        rw [resolve_eq_ok_iff hFrom] at hResolve ⊢
        apply hResolve.transfer
        · intro name v hTests hBound
          exact ⟨v, hMore name (mem_variableNames_of_tests hFrom hTests) v hBound, rfl⟩
        · simp
      have hSame : t.renderPieces k pieces = t.renderPieces k' pieces := by
        refine congrArg Writing.toString (write_congr fun name span hPiece => ?_)
        obtain ⟨v, hBound⟩ := bound_of_renderPieces hPieces hPiece
        rw [hBound, hMore name (mem_variableNames_of_mem hFrom hResolve hPiece) v hBound]
      rw [render, hResolve']
      exact hSame.symm.trans hPieces

end Template

namespace Control

/-- What version 200 defines, version 300 defines as well. -/
theorem Directive.isDefinedIn_v300 {d : Directive} (hDefined : d.isDefinedIn .v200 = true) :
    d.isDefinedIn .v300 = true := by
  cases d with
  | unknown key => cases hDefined
  | _ => rfl

/-- A text that does not set the version is sound as version 300 if it is sound as
version 200. -/
theorem complaintsOf_v300 {lines : List Line} (hUnset : ∀ l ∈ lines, l.directive? ≠ some .version)
    (hSound : complaintsOf (some .v200) lines = []) : complaintsOf (some .v300) lines = [] := by
  have hFaults := complaintsOf_eq_nil_iff.mp hSound
  refine complaintsOf_eq_nil_iff.mpr fun earlier line later hLines => ?_
  -- The caller has chosen the version, whatever the lines before say.
  have hMore : ∀ d : Directive, d.isDefinedIn (versionAfter (some .v200) earlier) = true →
      d.isDefinedIn (versionAfter (some .v300) earlier) = true :=
    fun _ => Directive.isDefinedIn_v300
  exact faultsOf_of_defined (hUnset line (by simp [hLines])) hMore
    (hFaults earlier line later hLines)

namespace Block

variable {text : List Char} {document : Document} {b : Block}

/-- A text that does not set the version, and that can be read as version 200, can be
read as version 300. Nothing is added to the block. -/
theorem parseAs_v300_of_v200 (hUnset : ¬ HasVersionLine text)
    (hParse : parseAs .v200 text document = .ok b) :
    ∃ common, b = .v200 common ∧ parseAs .v300 text document = .ok (.v300 common .empty) := by
  obtain ⟨hSound, rfl⟩ := scan_eq_ok_iff.mp hParse
  have hSound' : complaintsOf (some .v300) (Line.all text) = [] :=
    complaintsOf_v300 (fun l hl hSets => hUnset ⟨l, hl, hSets⟩) hSound
  have hMatches := Scan.foldl_readLine_matches document hSound hSound'
  have hFollows := Scan.foldl_readLine_follows document (some .v200) (Line.all text)
  have hFollows' := Scan.foldl_readLine_follows document (some .v300) (Line.all text)
  have hNothing := (Scan.foldl_readLine_kept document (some .v200) (Line.all text)).extras
    hFollows.version
  refine ⟨((Line.all text).foldl Scan.readLine (.start document (some .v200))).common, ?_,
    scan_eq_ok_iff.mpr ⟨hSound', ?_⟩⟩
  · rw [Scan.block, hFollows.version]
    rfl
  · rw [Scan.block, hFollows'.version, hMatches.common, hMatches.extras, hNothing]
    rfl

/-- The bindings of a block of version 200 are kept, apart from the version itself. -/
theorem get?_bindings_v300 {common : Common} {extras : Extras} {name : String} {v : Value}
    (hBound : (v200 common).bindings.get? name = some v) (hOther : name ≠ "ControlBlockVersion") :
    (v300 common extras).bindings.get? name = some v := by
  rw [get?_bindings_eq_some_iff] at hBound ⊢
  rcases List.mem_cons.mp hBound with hVersion | hMore
  · exact absurd (congrArg Prod.fst hVersion) hOther
  · exact List.mem_append_left _ (List.mem_cons_of_mem _ hMore)

/-- Reading a block as version 300 that was written for version 200. If it does not set
the version itself, it has the same ops manager, split restaurants and backup drivers,
with their lines, and nothing that version 300 adds. Audits come out the same. All names
are bound as before, except for the number of the version, and a template that rendered
without the latter renders to the same text. -/
theorem parseAs_v300_extends (hUnset : ¬ HasVersionLine text)
    (hParse : parseAs .v200 text document = .ok b) :
    ∃ b', parseAs .v300 text document = .ok b' ∧ b'.version = .v300 ∧
      b'.common = b.common ∧ b'.extras = .empty ∧
      (∀ k, b'.audit k = b.audit k) ∧
      (∀ name v, b.bindings.get? name = some v → b'.bindings.contains name = true ∧
        (name ≠ "ControlBlockVersion" → b'.bindings.get? name = some v)) ∧
      ∀ (g : Engine) source log t, (g.parseWith source log).1 = .ok t →
        "ControlBlockVersion" ∉ t.variableNames →
          ∀ s, t.render b.bindings = .ok s → t.render b'.bindings = .ok s := by
  obtain ⟨common, rfl, hParse'⟩ := parseAs_v300_of_v200 hUnset hParse
  refine ⟨_, hParse', rfl, rfl, rfl, fun k => rfl, ?_, ?_⟩
  · intro name v hBound
    refine ⟨contains_bindings_iff.mpr ?_, get?_bindings_v300 hBound⟩
    have hName : name ∈ Version.bindingNames .v200 :=
      contains_bindings_iff.mp (Option.isSome_of_eq_some hBound)
    exact List.mem_append_left _ hName
  · intro g source log t hRead hUnused s hRender
    refine Template.render_of_more (Engine.from_of_parseWith hRead) ?_ hRender
    intro name hName v hBound
    refine get?_bindings_v300 hBound ?_
    rintro rfl
    exact hUnused hName

set_option maxRecDepth 2000 in
theorem parseAs_v300_extends_hidden :
    ¬ HasVersionLine "ops-manager=ann|5".toList ∧
    ∃ b b', parseAs .v200 "ops-manager=ann|5".toList ⟨"test", none⟩ = .ok b ∧
      parseAs .v300 "ops-manager=ann|5".toList ⟨"test", none⟩ = .ok b' ∧
      b'.common = b.common ∧ b'.audit .empty = b.audit .empty ∧
      b'.bindings.get? "OpsManagerPhone" = some (.text "5") ∧
      ∃ t, ((Engine.mk .standard .accumulate).parseWith
          "&{IF BackupDrivers}${StartTimes}&{ENDIF}".toList (.empty ⟨"notice", none⟩)).1 = .ok t ∧
        t.render b.bindings = .ok "" ∧ t.render b'.bindings = .ok "" := by
  have hUnset : ¬ HasVersionLine "ops-manager=ann|5".toList := by decide
  have hParse : parseAs .v200 "ops-manager=ann|5".toList ⟨"test", none⟩ =
      .ok (.v200 ⟨⟨"test", none⟩, some ⟨"ann", "5", 1⟩, [], []⟩) := by rfl
  have hRead : ((Engine.mk .standard .accumulate).parseWith
      "&{IF BackupDrivers}${StartTimes}&{ENDIF}".toList (.empty ⟨"notice", none⟩)).1 =
        .ok ⟨⟨"notice", none⟩, "&{IF BackupDrivers}${StartTimes}&{ENDIF}".toList,
          [.conditional .whenTrue (.variable "BackupDrivers" ⟨5, 18⟩)
            [.variable "StartTimes" ⟨19, 32⟩] ⟨0, 40⟩]⟩ := by
    with_unfolding_all rfl
  obtain ⟨b', hParse', -, hCommon, -, hAudit, hBindings, hRender⟩ :=
    parseAs_v300_extends hUnset hParse
  have hPlain : Template.render ⟨⟨"notice", none⟩, "&{IF BackupDrivers}${StartTimes}&{ENDIF}".toList,
      [.conditional .whenTrue (.variable "BackupDrivers" ⟨5, 18⟩)
        [.variable "StartTimes" ⟨19, 32⟩] ⟨0, 40⟩]⟩
      (v200 ⟨⟨"test", none⟩, some ⟨"ann", "5", 1⟩, [], []⟩).bindings = .ok "" := by
    with_unfolding_all rfl
  exact ⟨hUnset, _, b', hParse, hParse', hCommon, hAudit .empty,
    (hBindings "OpsManagerPhone" (.text "5") rfl).2 (by decide), _, hRead, hPlain,
    hRender _ _ _ _ hRead (by decide) _ hPlain⟩

end Block

end Control

end Bulletin
