import Std.Data.TreeMap.Lemmas
import Mathlib.Data.List.Nodup
import Mathlib.Data.List.Perm.Basic
import Mathlib.Data.List.Induction

/-! Accumulating a sequence into a map entry per key. The entry of a key depends only on the
elements with that key, in their order; the keys split the sequence. -/
namespace Cxx
set_option autoImplicit false

open Std

variable {α κ β : Type} (key : α → κ) (step : Option β → α → β)

/-! ## Buckets and their entries -/

section Bucket
variable [DecidableEq κ]

/-- The elements that share a key, in their order. -/
def bucket (xs : List α) (k : κ) : List α := xs.filter fun x => key x = k

@[simp] theorem bucket_concat (xs : List α) (x : α) (k : κ) :
    bucket key (xs ++ [x]) k = bucket key xs k ++ if key x = k then [x] else [] := by
  simp only [bucket, List.filter_append, List.filter_cons, List.filter_nil, decide_eq_true_eq]

theorem mem_bucket {xs : List α} {k : κ} {x : α} : x ∈ bucket key xs k ↔ x ∈ xs ∧ key x = k := by
  simp [bucket]

/-- Buckets over duplicate-free keys that cover the sequence put it together again. -/
theorem flatMap_bucket_perm (xs : List α) (ks : List κ)
    (hd : ks.Nodup) (hc : ∀ x ∈ xs, key x ∈ ks) : (ks.flatMap (bucket key xs)).Perm xs := by
  induction ks generalizing xs with
  | nil =>
    cases xs with
    | nil => exact .refl _
    | cons x xs => exact absurd (hc x List.mem_cons_self) List.not_mem_nil
  | cons k ks ih =>
    obtain ⟨hk, hd⟩ := List.nodup_cons.mp hd
    have hrest : ks.flatMap (bucket key xs) =
        ks.flatMap (bucket key (xs.filter fun x => !decide (key x = k))) := by
      refine List.flatMap_congr fun k' hk' => ?_
      simp only [bucket, List.filter_filter]
      refine List.filter_congr fun x _ => ?_
      by_cases h : key x = k'
      · have hne : k' ≠ k := fun e => hk (e ▸ hk')
        simp [h, hne]
      · simp [h]
    have hperm := ih (xs.filter fun x => !decide (key x = k)) hd fun x hx => by
      have hx' := List.mem_filter.mp hx
      refine (List.mem_cons.mp (hc x hx'.1)).resolve_left fun e => ?_
      simp [e] at hx'
    rw [List.flatMap_cons, hrest]
    exact (List.Perm.append_left _ hperm).trans (List.filter_append_perm _ xs)

end Bucket

/-- The entry of a key: the fold over its bucket. -/
def entry (xs : List α) : Option β := xs.foldl (fun o x => some (step o x)) none

@[simp] theorem entry_concat (xs : List α) (x : α) :
    entry step (xs ++ [x]) = some (step (entry step xs) x) := by
  simp [entry]

theorem entry_eq_none {xs : List α} : entry step xs = none ↔ xs = [] := by
  induction xs using List.reverseRecOn with
  | nil => simp [entry]
  | append_singleton xs x _ => simp

/-! ## The map of entries -/

section GroupFold
variable [Ord κ]

/-- `for (x : xs) { map[key(x)] = step(map[key(x)], x); }`. -/
def groupFold (xs : List α) : TreeMap κ β :=
  xs.foldl (fun m x => m.insert (key x) (step m[key x]? x)) ∅

theorem groupFold_concat (xs : List α) (x : α) :
    groupFold key step (xs ++ [x]) =
      (groupFold key step xs).insert (key x) (step (groupFold key step xs)[key x]? x) := by
  simp [groupFold]

variable [TransOrd κ] [LawfulEqOrd κ]

theorem nodup_keys_groupFold (xs : List α) : (groupFold key step xs).keys.Nodup := by
  have h := (groupFold key step xs).distinct_keys
  exact h.imp fun h => by simpa using h

variable [DecidableEq κ]

theorem getElem?_groupFold (xs : List α) (k : κ) :
    (groupFold key step xs)[k]? = entry step (bucket key xs k) := by
  induction xs using List.reverseRecOn with
  | nil => simp [groupFold, bucket, entry]
  | append_singleton xs x ih =>
    rw [groupFold_concat, TreeMap.getElem?_insert, bucket_concat]
    by_cases h : key x = k
    · subst h
      simp [ih]
    · simp [h, ih]

theorem mem_keys_groupFold {xs : List α} {k : κ} :
    k ∈ (groupFold key step xs).keys ↔ ∃ x ∈ xs, key x = k := by
  rw [TreeMap.mem_keys, ← TreeMap.isSome_getElem?_iff_mem, getElem?_groupFold]
  rw [Option.isSome_iff_ne_none, ne_eq, entry_eq_none]
  simp [bucket]

/-- The map listed in key order: one entry per key, computed from the key's bucket. -/
theorem toList_groupFold (xs : List α) (dflt : β) :
    (groupFold key step xs).toList =
      (groupFold key step xs).keys.map fun k => (k, (entry step (bucket key xs k)).getD dflt) := by
  have hk : (groupFold key step xs).keys = (groupFold key step xs).toList.map Prod.fst :=
    (TreeMap.map_fst_toList_eq_keys).symm
  rw [hk, List.map_map]
  refine (List.map_id _).symm.trans (List.map_congr_left fun p hp => ?_)
  have hv : (groupFold key step xs)[p.1]? = some p.2 :=
    TreeMap.mem_toList_iff_getElem?_eq_some.mp hp
  rw [getElem?_groupFold] at hv
  simp [hv]

end GroupFold

end Cxx
