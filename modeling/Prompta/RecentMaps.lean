import Mathlib.Data.List.AList

/-!
Maps that hold a bounded number of entries, in the order in which these were set. Setting a
key makes it the newest one; when there are too many entries then, the oldest is removed.
-/
namespace Prompta.RecentMaps

variable {κ α : Type*} [DecidableEq κ]

/-- The newest entry comes first. -/
abbrev RecentMap (κ α : Type*) := AList fun _ : κ => α

namespace RecentMap

/-- The key that setting `k` removes from a map of at most `capacity` entries. -/
def pushedOut (capacity : ℕ) (m : RecentMap κ α) (k : κ) (v : α) : Option κ :=
  if capacity < (m.insert k v).keys.length then (m.insert k v).keys.getLast? else none

def remember (capacity : ℕ) (m : RecentMap κ α) (k : κ) (v : α) : RecentMap κ α :=
  match pushedOut capacity m k v with
  | some oldest => (m.insert k v).erase oldest
  | none => m.insert k v

variable {capacity : ℕ} {m : RecentMap κ α} {k k' : κ} {v : α}

/-- The newest entry is not the oldest one. -/
theorem pushedOut_ne (hcapacity : 0 < capacity) : pushedOut capacity m k v ≠ some k := by
  unfold pushedOut
  split
  · next hfull =>
    intro hlast
    have hnodup := (m.insert k v).keys_nodup
    rw [AList.keys_insert] at hfull hlast hnodup
    have hrest : m.keys.erase k ≠ [] := by
      intro hempty
      rw [hempty, List.length_singleton] at hfull
      omega
    rw [List.getLast?_cons_of_ne_nil hrest] at hlast
    exact (List.nodup_cons.mp hnodup).1 (List.mem_of_getLast? hlast)
  · exact fun h => by cases h

theorem lookup_remember_self (hcapacity : 0 < capacity) :
    (remember capacity m k v).lookup k = some v := by
  unfold remember
  split
  · next oldest hout =>
    have hne : k ≠ oldest := by
      intro h
      exact pushedOut_ne hcapacity (h ▸ hout)
    rw [AList.lookup_erase_ne hne, AList.lookup_insert]
  · exact AList.lookup_insert m

theorem lookup_remember_ne (hne : k' ≠ k) (hkept : pushedOut capacity m k v ≠ some k') :
    (remember capacity m k v).lookup k' = m.lookup k' := by
  unfold remember
  split
  · next oldest hout =>
    have holdest : k' ≠ oldest := by
      intro h
      exact hkept (h ▸ hout)
    rw [AList.lookup_erase_ne holdest, AList.lookup_insert_ne hne]
  · exact AList.lookup_insert_ne hne

/-- What is pushed out can no longer be found. -/
theorem lookup_remember_pushedOut (hout : pushedOut capacity m k v = some k') :
    (remember capacity m k v).lookup k' = none := by
  unfold remember
  rw [hout]
  exact AList.lookup_erase _ _

end RecentMap

end Prompta.RecentMaps
