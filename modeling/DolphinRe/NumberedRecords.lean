import Mathlib.Data.List.Infix
import Mathlib.Data.List.Nodup
import Mathlib.Data.List.Pairwise
import Mathlib.Tactic.Common

/-!
# Records that are numbered as they come

A table lists records under numbers that it hands out in increasing order. A
record keeps its nature for as long as it is listed, and its journal is only
added to. Growing older is a preorder on tables: what it says of one step holds
of any number of them.
-/

namespace DolphinRe.NumberedRecords

/-- What is looked at in a record. -/
structure Layout (ρ κ β : Type) where
  /-- Its number. -/
  number : ρ → ℕ
  /-- What never changes about it. -/
  nature : ρ → κ
  /-- What has been written down in it, oldest first. -/
  journal : ρ → List β

/-- The records listed, and the next number to hand out. -/
structure Table (ρ : Type) where
  /-- The next number. -/
  next : ℕ
  /-- The records, oldest first. -/
  records : List ρ

section Order

variable {ρ κ β : Type} {l : Layout ρ κ β} {t : Table ρ}

/-- Records stand in the order of their numbers, all of which have been handed out. -/
structure InOrder (l : Layout ρ κ β) (t : Table ρ) : Prop where
  /-- Every number in use has been handed out. -/
  below : ∀ r ∈ t.records, l.number r < t.next
  /-- The numbers increase, so that none is used twice. -/
  increasing : (t.records.map l.number).Pairwise (· < ·)

/-- Numbers are handed out without being used. -/
theorem InOrder.advance (h : InOrder l t) {next : ℕ} (hnext : t.next ≤ next) : InOrder l ⟨next, t.records⟩ where
  below r hr := (h.below r hr).trans_le hnext
  increasing := h.increasing

/-- Records go. -/
theorem InOrder.sublist (h : InOrder l t) {records : List ρ} (hsub : records.Sublist t.records) :
    InOrder l ⟨t.next, records⟩ where
  below r hr := h.below r (hsub.subset hr)
  increasing := h.increasing.sublist (hsub.map l.number)

/-- Records change, but not their numbers. -/
theorem InOrder.map (h : InOrder l t) {f : ρ → ρ} (hf : ∀ r, l.number (f r) = l.number r) :
    InOrder l ⟨t.next, t.records.map f⟩ where
  below r hr := by
    obtain ⟨old, hold, rfl⟩ := List.mem_map.mp hr
    rw [hf]
    exact h.below old hold
  increasing := by
    have hsame : (t.records.map f).map l.number = t.records.map l.number := by
      rw [List.map_map]
      exact List.map_congr_left fun r _ => hf r
    rw [hsame]
    exact h.increasing

/-- A record comes under a number above all the others. -/
theorem InOrder.append (h : InOrder l t) {r : ρ} (habove : ∀ old ∈ t.records, l.number old < l.number r)
    (hissued : l.number r < t.next) : InOrder l ⟨t.next, t.records ++ [r]⟩ where
  below s hs := by
    rcases List.mem_append.mp hs with hs | hs
    · exact h.below s hs
    · rw [List.mem_singleton.mp hs]
      exact hissued
  increasing := by
    rw [List.map_append, List.pairwise_append]
    refine ⟨h.increasing, List.pairwise_singleton _ _, fun m hm n hn => ?_⟩
    obtain ⟨old, hold, rfl⟩ := List.mem_map.mp hm
    rw [List.map_singleton, List.mem_singleton] at hn
    rw [hn]
    exact habove old hold

/-- A number is one record's. -/
theorem InOrder.unique (h : InOrder l t) {r s : ρ} (hr : r ∈ t.records) (hs : s ∈ t.records)
    (hsame : l.number r = l.number s) : r = s := by
  have hdistinct : (t.records.map l.number).Nodup := h.increasing.imp fun hlt => Nat.ne_of_lt hlt
  exact List.inj_on_of_nodup_map hdistinct hr hs hsame

end Order

section Age

variable {ρ κ β : Type} {l : Layout ρ κ β} {kept : ℕ → Prop} {t u v : Table ρ} {r s : ρ}

/-- A record goes on as another one; the journals of the kept numbers are only added to. -/
structure Continues (l : Layout ρ κ β) (kept : ℕ → Prop) (old new : ρ) : Prop where
  /-- The number is the same. -/
  number : l.number new = l.number old
  /-- So is what it says about its subject. -/
  nature : l.nature new = l.nature old
  /-- The journal of a kept number is only added to. -/
  journal : kept (l.number old) → l.journal old <+: l.journal new

theorem Continues.refl (r : ρ) : Continues l kept r r := ⟨rfl, rfl, fun _ => List.prefix_refl _⟩

theorem Continues.trans {old mid new : ρ} (h : Continues l kept old mid) (h' : Continues l kept mid new) :
    Continues l kept old new where
  number := h'.number.trans h.number
  nature := h'.nature.trans h.nature
  journal hkept := (h.journal hkept).trans (h'.journal (h.number ▸ hkept))

/-- Every record of the later table is new or goes on from the earlier one. -/
structure Ages (l : Layout ρ κ β) (kept : ℕ → Prop) (t u : Table ρ) : Prop where
  /-- No number is taken back. -/
  next : t.next ≤ u.next
  /-- A record with an old number goes on from an earlier one. -/
  continued : ∀ r ∈ u.records, l.number r < t.next → ∃ old ∈ t.records, Continues l kept old r

theorem Ages.refl (t : Table ρ) : Ages l kept t t :=
  ⟨le_rfl, fun r hr _ => ⟨r, hr, Continues.refl r⟩⟩

theorem Ages.trans (h : Ages l kept t u) (h' : Ages l kept u v) : Ages l kept t v where
  next := h.next.trans h'.next
  continued r hr hold := by
    obtain ⟨mid, hmid, hlater⟩ := h'.continued r hr (hold.trans_le h.next)
    rw [hlater.number] at hold
    obtain ⟨old, hmem, hearlier⟩ := h.continued mid hmid hold
    exact ⟨old, hmem, hearlier.trans hlater⟩

theorem ages_advance {next : ℕ} (hnext : t.next ≤ next) : Ages l kept t ⟨next, t.records⟩ :=
  ⟨hnext, fun r hr _ => ⟨r, hr, Continues.refl r⟩⟩

theorem ages_subset {records : List ρ} (hsub : records ⊆ t.records) : Ages l kept t ⟨t.next, records⟩ :=
  ⟨le_rfl, fun r hr _ => ⟨r, hsub hr, Continues.refl r⟩⟩

theorem ages_map {f : ρ → ρ} (hf : ∀ r ∈ t.records, Continues l kept r (f r)) :
    Ages l kept t ⟨t.next, t.records.map f⟩ := by
  refine ⟨le_rfl, fun r hr _ => ?_⟩
  obtain ⟨old, hold, rfl⟩ := List.mem_map.mp hr
  exact ⟨old, hold, hf old hold⟩

/-- A number that the earlier table had not handed out yet is a new record's. -/
theorem Ages.append (h : Ages l kept t u) (hnew : t.next ≤ l.number r) :
    Ages l kept t ⟨u.next, u.records ++ [r]⟩ where
  next := h.next
  continued s hs hold := by
    rcases List.mem_append.mp hs with hs | hs
    · exact h.continued s hs hold
    · rw [List.mem_singleton.mp hs] at hold
      omega

/-- The record under a number of the earlier table goes on under it. -/
theorem Ages.journal (h : Ages l kept t u) (ht : InOrder l t) (hr : r ∈ t.records) (hs : s ∈ u.records)
    (hsame : l.number s = l.number r) : Continues l kept r s := by
  have hold : l.number s < t.next := hsame ▸ ht.below r hr
  obtain ⟨old, hmem, hgoes⟩ := h.continued s hs hold
  have hfound : old = r := ht.unique hmem hr (hgoes.number.symm.trans hsame)
  rw [← hfound]
  exact hgoes

end Age

end DolphinRe.NumberedRecords
