import BuilderControl.Proofs.Leaves
import BuilderControl.Proofs.Merge

/-!
# Patches that touch different places

Applying a merge patch a second time changes nothing, and two patches neither of which has a leaf at
or below a leaf of the other can be applied in either order.  Where both patches have a member of
one key, neither of them ends there: both go on into an object, which a merge makes there whatever
the target has.

## Key results

- `Json.merge_merge_self`: a second application changes nothing
- `Json.merge_comm`: patches without a common place commute
- `MergePatch.apply_comm`: the same from the places that two patches report, and neither is lost
-/

namespace BuilderControl

namespace Json

/-- Applying a patch a second time changes nothing. -/
theorem merge_merge_self {t p : Json} (ht : t.WellFormed) (hp : p.WellFormed) :
    (t.merge p).merge p = t.merge p := by
  induction p using byMembers generalizing t with
  | obj ms ih =>
    -- A member is merged into what the first application has left of it
    refine ((ht.merge hp).merge hp).ext (ht.merge hp) rfl rfl fun k => ?_
    rw [get?_merge (ht.merge hp) hp.sorted, get?_merge ht hp.sorted]
    cases hm : Entries.get? ms k with
    | none => rfl
    | some v =>
      by_cases hnull : v = .null
      · subst hnull; rfl
      · simp only [mergeMember_some _ hnull, Option.getD_some]
        rw [ih k v hm (WellFormed.getD fun _ => ht.get?) (hp.member hm)]
  | _ => rfl

/-! ## Patches without a common place -/

/-- No leaf of one document is at a leaf of the other or below it. -/
def LeavesApart (p q : Json) : Prop :=
  ∀ names others, p.HasLeaf names → q.HasLeaf others → ¬ names <+: others ∧ ¬ others <+: names

/-- Under keys that two documents share, their leaves are apart. -/
def MembersApart (p q : Json) : Prop :=
  ∀ k a b, p.get? k = some a → q.get? k = some b → LeavesApart a b

/-- Leaves are apart from each other. -/
theorem LeavesApart.symm {p q : Json} (h : LeavesApart p q) : LeavesApart q p :=
  fun names others hn ho => (h others names ho hn).symm

/-- Leaves that are apart from those of anything else are below an object. -/
theorem LeavesApart.isLeaf_eq_false {p q : Json} (h : LeavesApart p q) : p.isLeaf = false := by
  obtain ⟨others, ho⟩ := exists_hasLeaf q
  rw [← Bool.not_eq_true]
  intro hleaf
  exact (h [] others (hasLeaf_nil.2 hleaf) ho).1 List.nil_prefix

/-- What has leaves that are apart from those of anything else is an object. -/
theorem LeavesApart.isObject {p q : Json} (h : LeavesApart p q) : p.isObject = true := by
  rw [← Bool.not_eq_false]
  intro hobj
  exact absurd (isLeaf_of_not_isObject hobj) (by simp [h.isLeaf_eq_false])

/-- Below a key that both documents have, their leaves are apart as well. -/
theorem LeavesApart.members {p q : Json} (h : LeavesApart p q) : MembersApart p q := by
  intro k a b ha hb names others hn ho
  have hcons := h (k :: names) (k :: others) (hasLeaf_cons.2 ⟨a, ha, hn⟩)
    (hasLeaf_cons.2 ⟨b, hb, ho⟩)
  simpa only [List.prefix_cons_inj] using hcons

/-- Two patches commute if their leaves are apart under every key that both have. -/
theorem merge_comm {t p q : Json} (ht : t.WellFormed) (hp : p.WellFormed) (hq : q.WellFormed)
    (hpo : p.isObject = true) (hqo : q.isObject = true) (h : MembersApart p q) :
    (t.merge p).merge q = (t.merge q).merge p := by
  induction p using byMembers generalizing t q with
  | obj ps ih =>
    obtain ⟨qs, rfl⟩ := isObject_iff.1 hqo
    -- Both sides are objects, so they are compared key by key
    refine ((ht.merge hp).merge hq).ext ((ht.merge hq).merge hp) rfl rfl fun k => ?_
    rw [get?_merge (ht.merge hp) hq.sorted, get?_merge ht hp.sorted,
      get?_merge (ht.merge hq) hp.sorted, get?_merge ht hq.sorted]
    cases ha : Entries.get? ps k with
    | none => rfl
    | some a =>
      cases hb : Entries.get? qs k with
      | none => rfl
      | some b =>
        -- Neither patch ends here, so both go on into an object
        have hapart : LeavesApart a b := h k a b ha hb
        have hnull : ∀ {v : Json}, v.isObject = true → v ≠ .null := by rintro _ hv rfl; cases hv
        simp only [mergeMember_some _ (hnull hapart.isObject),
          mergeMember_some _ (hnull hapart.symm.isObject), Option.getD_some]
        rw [ih k a ha (WellFormed.getD fun _ => ht.get?) (hp.member ha) (hq.member hb) hapart.isObject
          hapart.symm.isObject hapart.members]
  | _ => cases hpo

end Json

namespace MergePatch

open Json

/-- No place that one patch sets or removes is at or below one of the other. -/
def Apart (p q : MergePatch) : Prop :=
  ∀ a ∈ p.changedPaths, ∀ b ∈ q.changedPaths, ¬ a <+: b ∧ ¬ b <+: a

instance (p q : MergePatch) : Decidable (p.Apart q) :=
  inferInstanceAs (Decidable (∀ a ∈ p.changedPaths, ∀ b ∈ q.changedPaths, ¬ a <+: b ∧ ¬ b <+: a))

/-- A member's leaves are places that the patch reports. -/
theorem mem_changedPaths {p : MergePatch} (hp : p.toJson.WellFormed) {k : String} {v : Json}
    (hg : p.toJson.get? k = some v) {names : List String} (hleaf : v.HasLeaf names) :
    (k :: names).map .field ∈ p.changedPaths :=
  (mem_leaves_iff hp).2 ⟨k :: names, List.cons_ne_nil _ _, rfl, hasLeaf_cons.2 ⟨v, hg, hleaf⟩⟩

/-- Patches that report different places have their leaves apart. -/
theorem Apart.membersApart {p q : MergePatch} (hp : p.toJson.WellFormed)
    (hq : q.toJson.WellFormed) (h : p.Apart q) : MembersApart p.toJson q.toJson := by
  intro k a b ha hb names others hn ho
  obtain ⟨h₁, h₂⟩ := h _ (mem_changedPaths hp ha hn) _ (mem_changedPaths hq hb ho)
  exact ⟨fun hpre => h₁ (((List.prefix_cons_inj k).2 hpre).map _),
    fun hpre => h₂ (((List.prefix_cons_inj k).2 hpre).map _)⟩

/-- Patches that report different places can be applied in either order, and neither is lost: a
further application of one of them changes nothing. -/
theorem apply_comm {p q : MergePatch} {t : Json} (hp : p.toJson.WellFormed)
    (hq : q.toJson.WellFormed) (ht : t.WellFormed) (h : p.Apart q) :
    q.apply (p.apply t) = p.apply (q.apply t) ∧
      p.apply (q.apply (p.apply t)) = q.apply (p.apply t) ∧
      q.apply (q.apply (p.apply t)) = q.apply (p.apply t) := by
  have hcomm : q.apply (p.apply t) = p.apply (q.apply t) :=
    merge_comm ht hp hq rfl rfl (h.membersApart hp hq)
  have hagain : p.apply (p.apply (q.apply t)) = p.apply (q.apply t) :=
    merge_merge_self (ht.merge hq) hp
  refine ⟨hcomm, ?_, merge_merge_self (ht.merge hp) hq⟩
  rw [hcomm, hagain]

/-- Both patches go into a member that the target has as a number, and one of them only makes an
object. -/
theorem apply_comm_into_number :
    let p : MergePatch := ⟨[("a", .obj [("x", .null), ("y", .obj [("z", .bool true)])])]⟩
    let q : MergePatch := ⟨[("a", .obj [("w", .num (.int 1)), ("y", .obj [("v", .obj [])])]),
      ("b", .null)]⟩
    let t : Json := .obj [("a", .num (.int 5)), ("b", .arr [])]
    p.toJson.WellFormed ∧ q.toJson.WellFormed ∧ t.WellFormed ∧ p.Apart q ∧
      q.apply (p.apply t) = p.apply (q.apply t) ∧
      p.apply (q.apply (p.apply t)) = q.apply (p.apply t) ∧
      q.apply (q.apply (p.apply t)) = q.apply (p.apply t) :=
  ⟨by decide, by decide, by decide, by decide,
    apply_comm (by decide) (by decide) (by decide) (by decide)⟩

end MergePatch

end BuilderControl
