import LayeredConfig.Codec.Formats
import LayeredConfig.Proofs.Commented.Comments
import LayeredConfig.Proofs.Entries
import LayeredConfig.Proofs.Order.NumbersFirst
import LayeredConfig.Proofs.Outcomes

/-! # The order of keys

The keys of a map and the children of documentation have an order in which they were put there, but
documents do not show it: wherever they are laid out, children are sorted by names that tell all of
them apart, and only items of arrays stay in their order. -/

namespace LayeredConfig

open Commented

/-! ## Reordered trees and documentation -/

/-- The same tree up to the order of the entries of its maps, in which each key stands once. -/
inductive Tree.Reordered : Tree → Tree → Prop
  | leaf (value : Option Scalar) (mark : Mark) : Reordered (.leaf value mark) (.leaf value mark)
  | map {entries others : List (String × Tree)} (mark : Mark)
      (hnodup : (Entries.keys entries).Nodup)
      (hkeys : (Entries.keys entries).Perm (Entries.keys others))
      (h : ∀ key child other, (key, child) ∈ entries → (key, other) ∈ others →
        Reordered child other) : Reordered (.map entries mark) (.map others mark)
  | array {items others : List Tree} (mark : Mark) (hlength : items.length = others.length)
      (h : ∀ pair ∈ items.zip others, Reordered pair.1 pair.2) :
      Reordered (.array items mark) (.array others mark)

/-- The same documentation up to the order of its children, of which each name has one. -/
inductive Documentation.Reordered : Documentation → Documentation → Prop
  | node {children others : List (String × Documentation)} (note : DocNote)
      (hnodup : (Entries.keys children).Nodup)
      (hkeys : (Entries.keys children).Perm (Entries.keys others))
      (h : ∀ name child other, (name, child) ∈ children → (name, other) ∈ others →
        Reordered child other) : Reordered (.node note children) (.node note others)

namespace Tree.Reordered

variable {tree other : Tree} {trees others : Option Tree}

theorem scalar?_eq (h : tree.Reordered other) : tree.scalar? = other.scalar? := by
  cases h <;> rfl

theorem entries (h : tree.Reordered other) :
    Entries.Shuffled Reordered tree.entries other.entries := by
  cases h with
  | map mark hnodup hkeys h => exact ⟨hnodup, hkeys, h⟩
  | _ => exact ⟨List.nodup_nil, .nil, fun _ _ _ hmem => (List.not_mem_nil hmem).elim⟩

theorem items (h : tree.Reordered other) : List.Forall₂ Reordered tree.items other.items := by
  cases h with
  | array mark hlength h => exact List.forall₂_iff_zip.mpr ⟨hlength, fun hmem => h _ hmem⟩
  | _ => exact .nil

end Tree.Reordered

namespace Documentation

namespace Reordered

variable {documentation other : Documentation} {documentations others : Option Documentation}

theorem children (h : documentation.Reordered other) :
    Entries.Shuffled Reordered documentation.children other.children := by
  cases h with
  | node note hnodup hkeys h => exact ⟨hnodup, hkeys, h⟩

end Reordered

end Documentation

/-! ## Documented trees as they are shown -/

namespace Documented

/-- What a result is shown as. -/
def shown (result : Except Fault Documented) : Except Fault Entry := result.map toEntry

section Overlay

variable {documentation documentation' : Option Documentation} {presets presets' : Option Tree}
  {entries entries' : List (String × Tree)}

end Overlay

end Documented

/-! ## Trees with their origins -/

namespace Commented

variable (layout : Layout)

end Commented

/-! ## Documents -/

end LayeredConfig
