import Bulletin.Template

/-!
The names that a template uses, and lists in the order in which their items
first occur.
-/

namespace Bulletin

namespace Element

/-- The name that a conditional tests. -/
def testName? : Element → Option String
  | .variable name _ => some name
  | _ => none

mutual

/-- The names in an element, in the order of the document. The test of a
conditional comes before its body. -/
def names : Element → List String
  | .literal _ _ => []
  | .variable name _ => [name]
  | .conditional _ test body _ => test.testName?.toList ++ namesOfAll body

def namesOfAll : List Element → List String
  | [] => []
  | e :: rest => names e ++ namesOfAll rest

end

end Element

/-- The second list has what the first has, each once, in the order in which it
first occurs there. -/
structure FirstSeen {α : Type} [DecidableEq α] (items distinct : List α) : Prop where
  nodup : distinct.Nodup
  mem : ∀ a, a ∈ distinct ↔ a ∈ items
  order : distinct.Pairwise fun a b => items.idxOf a < items.idxOf b

section FirstSeen

variable {α : Type} [DecidableEq α]

/-- What is left out of a list does not change the order of the others. -/
theorem idxOf_lt_of_filter {p : α → Bool} {items : List α} {a b : α} (ha : p a = true)
    (hb : p b = true) (hBefore : (items.filter p).idxOf a < (items.filter p).idxOf b) :
    items.idxOf a < items.idxOf b := by
  induction items with
  | nil => simp at hBefore
  | cons c items ih =>
    have hBehind {d : α} (hOther : c ≠ d) (rest : List α) :
        (c :: rest).idxOf d = rest.idxOf d + 1 := by
      simp [List.idxOf_cons, beq_false_of_ne hOther]
    by_cases hKept : p c = true
    · rw [List.filter_cons_of_pos hKept] at hBefore
      by_cases hcb : c = b
      · rw [hcb, List.idxOf_cons_self] at hBefore
        exact absurd hBefore (Nat.not_lt_zero _)
      · rw [hBehind hcb] at hBefore ⊢
        by_cases hca : c = a
        · rw [hca, List.idxOf_cons_self]
          exact Nat.succ_pos _
        · rw [hBehind hca] at hBefore ⊢
          exact Nat.succ_lt_succ (ih (Nat.lt_of_succ_lt_succ hBefore))
    · have hca : c ≠ a := fun hSame => hKept (hSame ▸ ha)
      have hcb : c ≠ b := fun hSame => hKept (hSame ▸ hb)
      rw [List.filter_cons_of_neg hKept] at hBefore
      rw [hBehind hca, hBehind hcb]
      exact Nat.succ_lt_succ (ih hBefore)

theorem firstSeen_eraseDups (items : List α) : FirstSeen items items.eraseDups := by
  match items with
  | [] => exact ⟨List.nodup_nil, by simp, List.Pairwise.nil⟩
  | a :: items =>
    have hRest := firstSeen_eraseDups (items.filter fun b => !b == a)
    have hOther : ∀ b ∈ (items.filter fun b => !b == a).eraseDups, a ≠ b := by
      intro b hb
      have hKept := (List.mem_filter.mp ((hRest.mem b).mp hb)).2
      rintro rfl
      simp at hKept
    have hBehind {b : α} (hb : b ∈ (items.filter fun b => !b == a).eraseDups) :
        (a :: items).idxOf b = items.idxOf b + 1 := by
      simp [List.idxOf_cons, beq_false_of_ne (hOther b hb)]
    rw [List.eraseDups_cons]
    refine ⟨List.nodup_cons.mpr ⟨fun ha => hOther a ha rfl, hRest.nodup⟩, fun b => ?_, ?_⟩
    · rw [List.mem_cons, hRest.mem, List.mem_filter, List.mem_cons]
      by_cases hb : b = a <;> simp [hb]
    · refine List.pairwise_cons.mpr ⟨fun b hb => ?_, ?_⟩
      · rw [List.idxOf_cons_self, hBehind hb]
        exact Nat.succ_pos _
      · refine hRest.order.imp_of_mem fun {b c} hb hc hBefore => ?_
        rw [hBehind hb, hBehind hc]
        refine Nat.succ_lt_succ (idxOf_lt_of_filter ?_ ?_ hBefore)
        · simpa using Ne.symm (hOther b hb)
        · simpa using Ne.symm (hOther c hc)
termination_by items.length
decreasing_by exact Nat.lt_succ_of_le (List.length_filter_le ..)

end FirstSeen

/-- The distinct names that a template uses, in the order in which they first
occur. -/
def Template.variableNames (t : Template) : List String :=
  (Element.namesOfAll t.elements).eraseDups

end Bulletin
