import Bulletin.Control.Bindings
import Bulletin.Proofs.Dependence
import Bulletin.Proofs.Keeping
import Bulletin.Proofs.Latest

/-! What the bindings of a control block supply to templates. Each version binds a
fixed list of names, whatever a block of it sets. -/
namespace Bulletin

namespace Context

/-- The flag is bound to whether the value of the name counts as true. -/
def Announces (k : Context) (flag name : String) : Prop :=
  ∃ v, k.get? name = some v ∧ k.get? flag = some (.bool v.isTruthy)

/-- A conditional can test the flag as well as the value. -/
theorem Announces.decideTest_eq {k : Context} {flag name : String}
    (hAnnounces : k.Announces flag name) (t : Template) (flagSpan nameSpan : Span) :
    ∃ truthy, t.decideTest k (.variable flag flagSpan) = .ok truthy ∧
      t.decideTest k (.variable name nameSpan) = .ok truthy := by
  obtain ⟨v, hName, hFlag⟩ := hAnnounces
  refine ⟨v.isTruthy, ?_, ?_⟩
  · rw [Template.decideTest, Template.lookup, hFlag]
    rfl
  · rw [Template.decideTest, Template.lookup, hName]
    rfl

end Context

namespace Control

namespace Block

variable {b : Block} {name flag : String} {v : Value}

theorem get?_bindings_eq_some_iff : b.bindings.get? name = some v ↔ (name, v) ∈ b.bindingList := by
  have hNames : (b.bindingList.map Prod.fst).Nodup := by
    rw [map_fst_bindingList]
    cases b.version <;> decide
  rw [bindings_eq]
  exact Entries.get?_ofList_eq_some_iff hNames

theorem contains_bindings_iff : b.bindings.contains name ↔ name ∈ b.version.bindingNames := by
  rw [Context.contains, Option.isSome_iff_exists, ← map_fst_bindingList, List.mem_map]
  simp only [get?_bindings_eq_some_iff]
  simp

/-! Flags are set where the values that they announce count as true. -/

theorem announces_of_mem {c : Bool} (hFlag : (flag, .bool c) ∈ b.bindingList)
    (hName : (name, v) ∈ b.bindingList) (hTruthy : v.isTruthy = c) :
    b.bindings.Announces flag name :=
  ⟨v, get?_bindings_eq_some_iff.mpr hName, hTruthy ▸ get?_bindings_eq_some_iff.mpr hFlag⟩

theorem announces_initialFlags
    (hManager : ∀ o, b.common.opsManager? = some o → o.user ≠ "" ∧ o.phone ≠ "") :
    ∀ f ∈ Version.initialFlags, b.bindings.Announces f.1 f.2 := by
  have hList : b.commonBindings ⊆ b.bindingList := by
    cases b with
    | v200 common => exact List.Subset.refl _
    | v300 common extras => exact List.subset_append_left ..
  have hUser := isTruthy_textOrNothing fun o ho => (hManager o ho).1
  have hPhone := isTruthy_textOrNothing fun o ho => (hManager o ho).2
  have hDrivers := isTruthy_texts (b.common.backupDrivers.map BackupDriver.user)
  have hSplits := isTruthy_texts (b.common.splitRestaurants.map SplitRestaurant.restaurant)
  simp only [Version.initialFlags, List.forall_mem_cons]
  refine ⟨announces_of_mem (hList ?_) (hList ?_) hUser,
    announces_of_mem (hList ?_) (hList ?_) hPhone,
    announces_of_mem (hList ?_) (hList ?_) hDrivers,
    announces_of_mem (hList ?_) (hList ?_) hSplits, List.forall_mem_nil _⟩
  all_goals simp [commonBindings]

theorem announces_addedFlags {common : Common} {extras : Extras} :
    ∀ f ∈ Version.addedFlags, (v300 common extras).bindings.Announces f.1 f.2 := by
  have hList : (v300 common extras).extraBindings ⊆ (v300 common extras).bindingList :=
    List.subset_append_right ..
  have hMeals := isTruthy_texts_eraseDups extras.altMealOptions
  have hGroceries := isTruthy_texts_eraseDups extras.altGroceryOptions
  have hManagers := isTruthy_texts (extras.pickupManagers.map PickupManager.user)
  simp only [Version.addedFlags, List.forall_mem_cons]
  refine ⟨announces_of_mem (hList ?_) (hList ?_) hMeals,
    announces_of_mem (hList ?_) (hList ?_) hGroceries,
    announces_of_mem (hList ?_) (hList ?_) hManagers, List.forall_mem_nil _⟩
  all_goals simp [extraBindings, Block.extras, altMealCatalog, altGroceryCatalog]

theorem announces_of_mem_flags
    (hManager : ∀ o, b.common.opsManager? = some o → o.user ≠ "" ∧ o.phone ≠ "")
    (hFlag : (flag, name) ∈ b.version.flags) : b.bindings.Announces flag name := by
  rcases List.mem_append.mp hFlag with hInitial | hAdded
  · exact announces_initialFlags hManager (flag, name) hInitial
  · cases b with
    | v200 common => cases hAdded
    | v300 common extras => exact announces_addedFlags (flag, name) hAdded

/-! Nothing that a block binds is a map, or holds one. -/

theorem not_holdsMap_texts (items : List String) : ¬ (texts items).HoldsMap := by
  intro hMap
  cases hMap with
  | item hMem hMap =>
      obtain ⟨item, -, rfl⟩ := List.mem_map.mp hMem
      cases hMap

theorem not_holdsMap_textOrNothing (text? : Option String) :
    ¬ (textOrNothing text?).HoldsMap := by
  cases text? <;> nofun

theorem not_holdsMap_of_mem (hMem : (name, v) ∈ b.bindingList) : ¬ v.HoldsMap := by
  have hCommon : ∀ e ∈ b.commonBindings, ¬ e.2.HoldsMap := by
    simp only [commonBindings, List.forall_mem_cons]
    exact ⟨nofun, nofun, not_holdsMap_textOrNothing _, not_holdsMap_textOrNothing _, nofun,
      not_holdsMap_texts _, nofun, not_holdsMap_texts _, List.forall_mem_nil _⟩
  have hExtra : ∀ e ∈ b.extraBindings, ¬ e.2.HoldsMap := by
    simp only [extraBindings, List.forall_mem_cons]
    exact ⟨nofun, not_holdsMap_texts _, nofun, not_holdsMap_texts _, not_holdsMap_texts _, nofun,
      not_holdsMap_texts _, List.forall_mem_nil _⟩
  cases b with
  | v200 common => exact hCommon (name, v) hMem
  | v300 common extras =>
      exact (List.mem_append.mp hMem).elim (hCommon (name, v)) (hExtra (name, v))

/-- A template that uses no other names than those of the version can be rendered. -/
theorem render_bindings {t : Template} {parts : List Part}
    (hFrom : ∀ e ∈ t.elements, e.From parts)
    (hNames : ∀ name ∈ t.variableNames, name ∈ b.version.bindingNames) :
    ∃ s, t.render b.bindings = .ok s := by
  have hBound : ∀ name ∈ t.variableNames, b.bindings.contains name = true :=
    fun name hName => contains_bindings_iff.mpr (hNames name hName)
  obtain ⟨pieces, hResolve⟩ := Template.resolve_of_bound hFrom fun name hTests =>
    hBound name (Template.mem_variableNames_of_tests hFrom hTests)
  cases hRender : t.renderPieces b.bindings pieces with
  | ok s =>
      refine ⟨s, ?_⟩
      rw [Template.render, hResolve]
      exact hRender
  | error e =>
      obtain ⟨name, v, hValue, hMap, -⟩ :=
        Template.map_of_renderPieces_eq_error hFrom hBound hResolve hRender
      exact absurd hMap (not_holdsMap_of_mem (get?_bindings_eq_some_iff.mp hValue))

theorem opsManager_of_scan {text : List Char} {document : Document} {forced? : Option Version}
    (hScan : scan text document forced? = .ok b) :
    ∀ o, b.common.opsManager? = some o → o.user ≠ "" ∧ o.phone ≠ "" := by
  obtain ⟨-, rfl⟩ := scan_eq_ok_iff.mp hScan
  rw [Scan.common_block]
  exact (Scan.foldl_readLine_kept document forced? _).opsManager

theorem catalogs_of_version (hVersion : b.version = .v300) :
    b.bindings.get? "AltMealOptions" = some (texts b.altMealCatalog) ∧
      b.bindings.get? "AltGroceryOptions" = some (texts b.altGroceryCatalog) := by
  cases b with
  | v200 common => cases hVersion
  | v300 common extras =>
      simp [get?_bindings_eq_some_iff, bindingList, extraBindings]

/-- The bindings of a block that was read. The names of its version are bound and no
others. A flag can be tested as well as the values that it announces. The options are
listed once each, in the order in which they are first set. A template that was read
renders, whatever the block sets, if it uses no other names. -/
theorem bindings_suffice {text : List Char} {document : Document} {forced? : Option Version}
    (hScan : scan text document forced? = .ok b) :
    (∀ name, b.bindings.contains name = true ↔ name ∈ b.version.bindingNames) ∧
    (∀ flag name, (flag, name) ∈ b.version.flags → b.bindings.Announces flag name ∧
      ∀ (t : Template) flagSpan nameSpan, ∃ truthy,
        t.decideTest b.bindings (.variable flag flagSpan) = .ok truthy ∧
          t.decideTest b.bindings (.variable name nameSpan) = .ok truthy) ∧
    (b.version = .v300 → ∃ meals groceries,
      b.bindings.get? "AltMealOptions" = some (.list (meals.map .text)) ∧
        FirstSeen b.extras.altMealOptions meals ∧
      b.bindings.get? "AltGroceryOptions" = some (.list (groceries.map .text)) ∧
        FirstSeen b.extras.altGroceryOptions groceries) ∧
    ∀ (g : Engine) source log t, (g.parseWith source log).1 = .ok t →
      (∀ name ∈ t.variableNames, name ∈ b.version.bindingNames) →
        ∃ s, t.render b.bindings = .ok s := by
  refine ⟨fun name => contains_bindings_iff, ?_, ?_, ?_⟩
  · intro flag name hFlag
    have hAnnounces := announces_of_mem_flags (opsManager_of_scan hScan) hFlag
    exact ⟨hAnnounces, hAnnounces.decideTest_eq⟩
  · intro hVersion
    obtain ⟨hMeals, hGroceries⟩ := catalogs_of_version hVersion
    exact ⟨_, _, hMeals, firstSeen_eraseDups _, hGroceries, firstSeen_eraseDups _⟩
  · intro g source log t hRead hNames
    exact render_bindings (Engine.from_of_parseWith hRead) hNames

set_option maxRecDepth 2000 in
theorem bindings_suffice_version300 :
    ∃ b, scan "version=300\nops-manager=ann|5\nalt-meal-options=A,B,A".toList ⟨"test", none⟩ none =
        .ok b ∧
      b.bindings.contains "PickupManagers" = true ∧
      b.bindings.Announces "HasOpsManager" "OpsManagerPhone" ∧
      (∃ meals, b.bindings.get? "AltMealOptions" = some (.list (meals.map .text)) ∧
        FirstSeen ["A", "B", "A"] meals) ∧
      ∃ t, ((Engine.mk .standard .accumulate).parseWith
          "&{IF HasAltMealOptions}${StartTimes}&{ENDIF}".toList (.empty ⟨"notice", none⟩)).1 =
            .ok t ∧
        ∃ s, t.render b.bindings = .ok s := by
  have hScan : scan "version=300\nops-manager=ann|5\nalt-meal-options=A,B,A".toList
      ⟨"test", none⟩ none = .ok (.v300 ⟨⟨"test", none⟩, some ⟨"ann", "5", 2⟩, [], []⟩
        ⟨["A", "B", "A"], [], [], []⟩) := by rfl
  have hRead : ((Engine.mk .standard .accumulate).parseWith
      "&{IF HasAltMealOptions}${StartTimes}&{ENDIF}".toList (.empty ⟨"notice", none⟩)).1 =
        .ok ⟨⟨"notice", none⟩, "&{IF HasAltMealOptions}${StartTimes}&{ENDIF}".toList,
          [.conditional .whenTrue (.variable "HasAltMealOptions" ⟨5, 22⟩)
            [.variable "StartTimes" ⟨23, 36⟩] ⟨0, 44⟩]⟩ := by
    with_unfolding_all rfl
  obtain ⟨hNames, hFlags, hOptions, hRender⟩ := bindings_suffice hScan
  obtain ⟨meals, -, hBound, hMeals, -⟩ := hOptions rfl
  exact ⟨_, hScan, (hNames _).mpr (by decide), (hFlags _ _ (by decide)).1, ⟨meals, hBound, hMeals⟩,
    _, hRead, hRender _ _ _ _ hRead (by decide)⟩

end Block

end Control

end Bulletin
