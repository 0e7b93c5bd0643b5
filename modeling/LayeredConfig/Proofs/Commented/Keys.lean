import LayeredConfig.Proofs.Documentation.Reordering
import LayeredConfig.Proofs.Yaml.Document

/-! # Keys of documents

A document with origins shows every key as it is, without quotes. It holds the same tree again, up
to the order of its keys, if every key is read as it is written. -/

namespace LayeredConfig

open Yaml Commented

/-! ## Sorted trees -/

namespace Tree

mutual

/-- A tree with the entries of its maps in the order of documents. -/
def sorted : Tree → Tree
  | leaf value mark => leaf value mark
  | map entries mark => map (Documented.inOrder (sortedEntries entries)) mark
  | array items mark => array (sortedItems items) mark

def sortedEntries : List (String × Tree) → List (String × Tree)
  | [] => []
  | (key, child) :: rest => (key, sorted child) :: sortedEntries rest

def sortedItems : List Tree → List Tree
  | [] => []
  | item :: rest => sorted item :: sortedItems rest

end

theorem sortedEntries_eq (entries : List (String × Tree)) :
    sortedEntries entries = entries.map fun entry => (entry.1, entry.2.sorted) := by
  induction entries with
  | nil => rfl
  | cons entry rest ih => rw [sortedEntries, ih, List.map_cons]

theorem sorted_map (entries : List (String × Tree)) (mark : Mark) :
    (map entries mark).sorted =
      map ((Documented.inOrder entries).map fun entry => (entry.1, entry.2.sorted)) mark := by
  rw [sorted, sortedEntries_eq, Documented.inOrder_map_snd]

variable {keys texts : String → Prop} {tree : Tree}

theorem perm_keys_sorted (entries : List (String × Tree)) :
    (Entries.keys entries).Perm (Entries.keys
      ((Documented.inOrder entries).map fun entry => (entry.1, entry.2.sorted))) := by
  rw [Entries.keys, Entries.keys, List.map_map]
  exact (List.mergeSort_perm entries _).symm.map Prod.fst

theorem Nested.mono {others : String → Prop} (h : tree.Nested keys texts)
    (htexts : ∀ text, texts text → others text) : tree.Nested keys others := by
  induction h with
  | leaf h => exact .leaf (htexts _ h)
  | map hne hnodup hkeys _ ih => exact .map hne hnodup hkeys ih

theorem Nested.sorted (h : tree.Nested keys texts) : tree.sorted.Nested keys texts := by
  induction h with
  | leaf h => exact .leaf h
  | @map entries hne hnodup hkeys h ih =>
      have hperm := perm_keys_sorted entries
      rw [sorted_map]
      refine .map (fun hnil => hne ?_) (hperm.nodup hnodup)
        (fun key hkey => hkeys key (hperm.mem_iff.mpr hkey)) fun entry hentry => ?_
      · rw [hnil] at hperm
        exact List.map_eq_nil_iff.mp hperm.eq_nil
      · obtain ⟨entry, hmem, rfl⟩ := List.mem_map.mp hentry
        exact ih entry (List.mem_mergeSort.mp hmem)

end Tree

/-! ## Lines of documents -/

namespace Commented

variable {keys texts : String → Prop} {tree : Tree}

end Commented

end LayeredConfig
