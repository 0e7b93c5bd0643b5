import LayeredConfig.Proofs.Entries
import LayeredConfig.Proofs.Outcomes
import LayeredConfig.Proofs.Tree.Layers
import LayeredConfig.Yaml.Document
import Mathlib

/-! # Trees of texts from tokens

A tree of maps down to texts stands in tokens as nested block mappings. Those tokens are composed to
nodes that become the tree again, each node with its own origin. -/

namespace LayeredConfig

/-! ## Trees of texts -/

namespace Tree

/-- Maps of distinct admitted keys, none of them empty, down to admitted texts. -/
inductive Nested (keys texts : String → Prop) : Tree → Prop
  | leaf {text : String} (h : texts text) : Nested keys texts (.leaf (some (.text text)) {})
  | map {entries : List (String × Tree)} (hne : entries ≠ [])
      (hnodup : (Entries.keys entries).Nodup) (hkeys : ∀ key ∈ Entries.keys entries, keys key)
      (h : ∀ entry ∈ entries, Nested keys texts entry.2) : Nested keys texts (.map entries {})

end Tree

namespace Yaml

mutual

/-- The tokens of a tree of texts in block style, where `plain` tells how a text is written. -/
def tokensOf (plain : String → Bool) : Tree → List Token
  | .leaf (some (.text text)) _ => [.scalar (plain text) text]
  | .map entries _ => .blockMappingStart :: entryTokens plain entries ++ [.blockEnd]
  | _ => []

def entryTokens (plain : String → Bool) : List (String × Tree) → List Token
  | [] => []
  | (key, child) :: rest =>
    .key :: .scalar true key :: .value :: tokensOf plain child ++ entryTokens plain rest

end

/-- The tokens of keys in front of those of their values. -/
def keyedTokens (values : Tree → List Token) (entries : List (String × Tree)) : List Token :=
  entries.flatMap fun entry => .key :: .scalar true entry.1 :: .value :: values entry.2

theorem entryTokens_eq (plain : String → Bool) (entries : List (String × Tree)) :
    entryTokens plain entries = keyedTokens (tokensOf plain) entries := by
  induction entries with
  | nil => rfl
  | cons entry rest ih => rw [entryTokens, ih, keyedTokens, keyedTokens, List.flatMap_cons]

namespace Node

/-! ## From nodes to trees -/

/-- A node that stands for a tree, wherever it is from. -/
def Holds (node : Node) (tree : Tree) : Prop :=
  ∀ name, ∃ found, node.merged.toTree name = .ok found ∧ found.withoutOrigins = tree

/-- The entries of a mapping node that stand for those of a map. -/
def HoldsEntries (nodes : List (Node × Node)) (entries : List (String × Tree)) : Prop :=
  List.Forall₂ (fun node entry =>
    (∃ start, node.1 = .scalar (resolve entry.1) entry.1 start) ∧ node.2.Holds entry.2)
    nodes entries

theorem holds_text (text : String) (start : Position) :
    (scalar (coreTag "str") text start).Holds (.leaf (some (.text text)) {}) := by
  intro name
  have hread : TaggedScalar.read (coreTag "str") text = .ok (.scalar (.text text)) := by
    rw [TaggedScalar.read, if_neg (by decide), if_pos (by decide)]
  refine ⟨.leaf (some (.text text)) { origins := [start.toOrigin name] }, ?_, rfl⟩
  rw [merged, toTree, scalarTree, hread]
  · exact nofun
  · exact nofun

theorem mergedEntries_eq (nodes : List (Node × Node)) :
    mergedEntries nodes = nodes.map fun node => (node.1, node.2.merged) := by
  induction nodes with
  | nil => rfl
  | cons node rest ih => rw [mergedEntries, ih, List.map_cons]

/-- Without merge keys nothing is merged. -/
theorem carryOut_of_forall (tag : String) {nodes : List (Node × Node)} (start : Position)
    (h : ∀ node ∈ nodes, node.1.isMergeKey = false) :
    carryOut tag nodes start = mapping tag nodes start := by
  have hnone : nodes.filter (fun node => node.1.isMergeKey) = [] :=
    List.filter_eq_nil_iff.mpr fun node hnode => by simp [h node hnode]
  have hall : nodes.filter (fun node => !node.1.isMergeKey) = nodes :=
    List.filter_eq_self.mpr fun node hnode => by simp [h node hnode]
  rw [carryOut, hnone, hall]
  rfl

/-- Entries as a mapping takes them over: each in turn sets the child of the name that it spells. -/
def gathered (built : Entries Tree) (entries : List (String × Tree)) : Entries Tree :=
  entries.foldl (fun built entry => built.set (splitSecret entry.1).1
    (markSecret (splitSecret entry.1).2 entry.2)) built

/-- Keys without annotations, none of them set before, are taken over as they are. -/
theorem gathered_of_nodup {built : Entries Tree} {entries : List (String × Tree)}
    (hnodup : (Entries.keys (built ++ entries)).Nodup)
    (hkeys : ∀ key ∈ Entries.keys entries, splitSecret key = (key, false)) :
    gathered built entries = built ++ entries := by
  induction entries generalizing built with
  | nil => exact (List.append_nil built).symm
  | cons entry rest ih =>
      have hkey : entry.1 ∉ Entries.keys built := by
        rw [Entries.keys, List.map_append, List.map_cons] at hnodup
        exact fun hmem => (List.nodup_append.mp hnodup).2.2 _ hmem _ List.mem_cons_self rfl
      rw [gathered, List.foldl_cons, hkeys entry.1 List.mem_cons_self, Entries.set_of_not_mem hkey,
        ← gathered, ih _ fun key hkey => hkeys key (List.mem_cons_of_mem _ hkey), List.append_assoc]
      · rfl
      · rwa [List.append_assoc]

theorem withoutOrigins_markSecret (secret : Bool) (tree : Tree) :
    (markSecret secret tree).withoutOrigins = markSecret secret tree.withoutOrigins := by
  cases secret <;> cases tree <;> rfl

theorem entriesWithoutOrigins_set (key : String) (child : Tree) (built : Entries Tree) :
    Tree.entriesWithoutOrigins (built.set key child) =
      Entries.set key child.withoutOrigins (Tree.entriesWithoutOrigins built) := by
  induction built with
  | nil => rfl
  | cons entry rest ih =>
      obtain ⟨other, tree⟩ := entry
      rw [Entries.set, Tree.entriesWithoutOrigins, Entries.set]
      split
      · rfl
      · rw [Tree.entriesWithoutOrigins, ih]

theorem exists_entriesToTrees (name : String) (origin : Origin) {nodes : List (Node × Node)}
    {entries : List (String × Tree)} (h : HoldsEntries nodes entries) (built : Entries Tree) :
    ∃ found, entriesToTrees name origin built (mergedEntries nodes) = .ok found ∧
      Tree.entriesWithoutOrigins found =
        gathered (Tree.entriesWithoutOrigins built) entries := by
  induction h generalizing built with
  | nil => exact ⟨built, by rw [mergedEntries, entriesToTrees], rfl⟩
  | @cons node entry nodes entries hentry _ ih =>
      obtain ⟨key, value⟩ := node
      obtain ⟨spelled, tree⟩ := entry
      obtain ⟨⟨start, rfl⟩, hvalue⟩ := hentry
      obtain ⟨child, hchild, rfl⟩ := hvalue name
      obtain ⟨found, hfound, hentries⟩ := ih
        (built.set (splitSecret spelled).1 (markSecret (splitSecret spelled).2 child))
      refine ⟨found, ?_, ?_⟩
      · rw [mergedEntries, entriesToTrees, keyText?]
        simp only [hchild, bind, Except.bind, hfound]
      · rw [hentries, entriesWithoutOrigins_set, withoutOrigins_markSecret]
        rfl

/-- A mapping without merge keys stands for its entries, gathered by the names that they spell. -/
theorem holds_gathered {nodes : List (Node × Node)} {entries : List (String × Tree)}
    (h : HoldsEntries nodes entries)
    (hkeys : ∀ key ∈ Entries.keys entries, resolve key ≠ coreTag "merge")
    (tag : String) (start : Position) :
    (mapping tag nodes start).Holds (.map (gathered [] entries) {}) := by
  intro name
  obtain ⟨found, hfound, hentries⟩ := exists_entriesToTrees name (start.toOrigin name) h []
  have hmerge : ∀ node ∈ mergedEntries nodes, node.1.isMergeKey = false := by
    intro node hnode
    rw [mergedEntries_eq] at hnode
    obtain ⟨⟨key, value⟩, hmem, rfl⟩ := List.mem_map.mp hnode
    obtain ⟨entry, hentry, ⟨⟨start, rfl⟩, -⟩⟩ := exists_of_mem_left h hmem
    exact beq_false_of_ne (hkeys entry.1 (List.mem_map_of_mem hentry))
  refine ⟨.map found { origins := [start.toOrigin name] }, ?_, ?_⟩
  · rw [merged, carryOut_of_forall tag start hmerge, toTree, hfound]
    rfl
  · rw [Tree.withoutOrigins, hentries]
    rfl

/-! ## From tokens to nodes -/

theorem compose_scalar (indentless : Bool) (context : Context) (plain : Bool) (text : String)
    (start stop : Position) (rest : List Located) :
    compose true indentless context (⟨.scalar plain text, start, stop⟩ :: rest) =
      .ok (scalar (if plain then resolve text else coreTag "str") text start, context, rest) := by
  have hproperties : properties context (⟨.scalar plain text, start, stop⟩ :: rest) =
      .ok ({}, ⟨.scalar plain text, start, stop⟩ :: rest) := rfl
  rw [compose]
  · split
    · next heq => rw [hproperties] at heq; cases heq
    · next heq =>
      rw [hproperties] at heq
      cases heq
      rw [content]
      rfl
  · exact fun _ _ _ _ heq => Token.noConfusion (congrArg Located.token (List.cons.inj heq).1)

theorem compose_mapping (indentless : Bool) (context : Context) (start stop : Position)
    {rest left : List Located} {entries : List (Node × Node)}
    (h : blockEntries context rest = .ok (entries, context, left)) :
    compose true indentless context (⟨.blockMappingStart, start, stop⟩ :: rest) =
      .ok (mapping (coreTag "map") entries start, context, left) := by
  have hproperties : properties context (⟨.blockMappingStart, start, stop⟩ :: rest) =
      .ok ({}, ⟨.blockMappingStart, start, stop⟩ :: rest) := rfl
  rw [compose]
  · split
    · next heq => rw [hproperties] at heq; cases heq
    · next heq =>
      rw [hproperties] at heq
      cases heq
      simp only [content, Context.declare, bind, Except.bind, h, if_true]
      rfl
  · exact fun _ _ _ _ heq => Token.noConfusion (congrArg Located.token (List.cons.inj heq).1)

/-- Tokens that are composed to a node of a tree, whatever follows them. -/
structure Composes (tokens : List Token) (tree : Tree) : Prop where
  first : ∃ first more, tokens = first :: more ∧
    [Token.key, .value, .blockEnd].contains first = false
  compose : ∀ (indentless : Bool) (context : Context) (located : List Located) (rest : List Token),
    located.map (·.token) = tokens ++ rest →
      ∃ node left, compose true indentless context located = .ok (node, context, left) ∧
        left.map (·.token) = rest ∧ node.Holds tree

theorem Composes.composeUnless {tokens rest : List Token} {tree : Tree} (h : Composes tokens tree)
    (position : Position) (context : Context) {located : List Located}
    (hlocated : located.map (·.token) = tokens ++ rest) :
    ∃ node left, composeUnless [.key, .value, .blockEnd] position true context located =
      .ok (node, context, left) ∧ left.map (·.token) = rest ∧ node.Holds tree := by
  obtain ⟨first, more, rfl, hfirst⟩ := h.first
  have hnext : isNext [.key, .value, .blockEnd] located = false := by
    obtain ⟨head, tail, rfl, rfl, -⟩ := List.map_eq_cons_iff.mp hlocated
    exact hfirst
  rw [Node.composeUnless, hnext, if_neg Bool.false_ne_true]
  exact h.compose true context located rest hlocated

theorem exists_blockEntries {values : Tree → List Token} {entries : List (String × Tree)}
    (h : ∀ entry ∈ entries, Composes (values entry.2) entry.2)
    (context : Context) {located : List Located} {rest : List Token}
    (hlocated : located.map (·.token) = keyedTokens values entries ++ .blockEnd :: rest) :
    ∃ nodes left, blockEntries context located = .ok (nodes, context, left) ∧
      left.map (·.token) = rest ∧ HoldsEntries nodes entries := by
  induction entries generalizing located with
  | nil =>
      obtain ⟨⟨_, start, stop⟩, left, rfl, rfl, rfl⟩ := List.map_eq_cons_iff.mp hlocated
      exact ⟨[], left, by rw [blockEntries], rfl, .nil⟩
  | cons entry entries ih =>
      obtain ⟨key, child⟩ := entry
      rw [keyedTokens, List.flatMap_cons, ← keyedTokens] at hlocated
      obtain ⟨⟨_, keyStart, keyStop⟩, behindKey, rfl, rfl, hkey⟩ := List.map_eq_cons_iff.mp hlocated
      obtain ⟨⟨_, textStart, textStop⟩, behindText, rfl, rfl, htext⟩ := List.map_eq_cons_iff.mp hkey
      obtain ⟨⟨_, signStart, signStop⟩, behindSign, rfl, rfl, hsign⟩ :=
        List.map_eq_cons_iff.mp htext
      rw [List.append_eq, List.append_eq, List.append_assoc] at hsign
      obtain ⟨value, behind, hvalue, hbehind, hholds⟩ :=
        (h _ List.mem_cons_self).composeUnless signStop context hsign
      obtain ⟨nodes, left, hnodes, hleft, hrest⟩ :=
        ih (fun entry hentry => h entry (List.mem_cons_of_mem _ hentry)) hbehind
      refine ⟨(scalar (resolve key) key textStart, value) :: nodes, left, ?_, hleft,
        .cons ⟨⟨textStart, rfl⟩, hholds⟩ hrest⟩
      have hshorter : behind.length ≤ behindSign.length := by
        have hsignLength := congrArg List.length hsign
        have hbehindLength := congrArg List.length hbehind
        rw [List.length_map] at hsignLength hbehindLength
        rw [List.length_append, ← hbehindLength] at hsignLength
        omega
      have hname : Node.composeUnless [.key, .value, .blockEnd] keyStop true context
          (⟨.scalar true key, textStart, textStop⟩ :: ⟨.value, signStart, signStop⟩ :: behindSign) =
          .ok (scalar (resolve key) key textStart, context,
            ⟨.value, signStart, signStop⟩ :: behindSign) := by
        rw [Node.composeUnless]
        exact compose_scalar true context true key textStart textStop _
      have hsigned : blockValue context (⟨.value, signStart, signStop⟩ :: behindSign) =
          .ok (value, context, behind) := by
        rw [blockValue]
        exact hvalue
      rw [blockEntries, hname]
      dsimp only
      rw [dif_pos (by simp), hsigned]
      dsimp only
      rw [dif_pos (by simp only [List.length_cons]; omega), hnodes]

/-- A mapping is composed if its values are. -/
theorem Composes.gathered {values : Tree → List Token} {entries : List (String × Tree)}
    (h : ∀ entry ∈ entries, Composes (values entry.2) entry.2)
    (hkeys : ∀ key ∈ Entries.keys entries, resolve key ≠ coreTag "merge") :
    Composes (.blockMappingStart :: (keyedTokens values entries ++ [.blockEnd]))
      (.map (gathered [] entries) {}) := by
  refine ⟨⟨_, _, rfl, rfl⟩, fun indentless context located rest hlocated => ?_⟩
  obtain ⟨⟨_, start, stop⟩, body, rfl, rfl, hbody⟩ := List.map_eq_cons_iff.mp hlocated
  rw [List.append_eq, List.append_assoc] at hbody
  obtain ⟨nodes, left, hnodes, hleft, hholds⟩ := exists_blockEntries h context hbody
  exact ⟨_, left, compose_mapping indentless context start stop hnodes, hleft,
    holds_gathered hholds hkeys _ start⟩

theorem Composes.map {values : Tree → List Token} {entries : List (String × Tree)}
    (h : ∀ entry ∈ entries, Composes (values entry.2) entry.2)
    (hnodup : (Entries.keys entries).Nodup)
    (hkeys : ∀ key ∈ Entries.keys entries,
      splitSecret key = (key, false) ∧ resolve key ≠ coreTag "merge") :
    Composes (.blockMappingStart :: (keyedTokens values entries ++ [.blockEnd]))
      (.map entries {}) := by
  have hgathered : Node.gathered [] entries = entries :=
    gathered_of_nodup hnodup fun key hkey => (hkeys key hkey).1
  have hcomposes := Composes.gathered h fun key hkey => (hkeys key hkey).2
  rwa [hgathered] at hcomposes

theorem Composes.scalar {plain : Bool} {text : String} {tree : Tree}
    (h : ∀ start, (scalar (if plain then resolve text else coreTag "str") text start).Holds tree) :
    Composes [.scalar plain text] tree := by
  refine ⟨⟨_, [], rfl, rfl⟩, fun indentless context located rest hlocated => ?_⟩
  obtain ⟨⟨_, start, stop⟩, left, rfl, rfl, rfl⟩ := List.map_eq_cons_iff.mp hlocated
  exact ⟨_, left, compose_scalar indentless context plain text start stop left, rfl, h start⟩

/-- What the keys and texts of a tree need to be read again. -/
theorem composes {keys texts : String → Prop} {plain : String → Bool} {tree : Tree}
    (h : tree.Nested keys texts)
    (hkeys : ∀ key, keys key → splitSecret key = (key, false) ∧ resolve key ≠ coreTag "merge")
    (htexts : ∀ text, texts text → plain text = true → resolve text = coreTag "str") :
    Composes (tokensOf plain tree) tree := by
  induction h with
  | @leaf text htext =>
      have htag : (if plain text then resolve text else coreTag "str") = coreTag "str" := by
        split
        · next hplain => exact htexts text htext hplain
        · rfl
      exact .scalar fun start => by rw [htag]; exact holds_text text start
  | @map entries hne hnodup hadmitted _ ih =>
      have hmap := Composes.map ih hnodup fun key hkey => hkeys key (hadmitted key hkey)
      rwa [← entryTokens_eq] at hmap

/-! ## Documents -/

theorem ofTokens_eq {located left : List Located} {node : Node} {context : Context}
    (hsome : isNext [.streamEnd] located = false)
    (hnode : (if startsDocument located then explicitDocument located
      else compose true false { handles := standardHandles } located) = .ok (node, context, left))
    (hleft : left.map (·.token) = [.streamEnd]) : ofTokens located = .ok (some node) := by
  have hend : isNext [.streamEnd] (skipDocumentEnds left) = true := by
    obtain ⟨⟨_, start, stop⟩, _, rfl, rfl, hnil⟩ := List.map_eq_cons_iff.mp hleft
    cases List.map_eq_nil_iff.mp hnil
    rfl
  rw [ofTokens, hsome, if_neg Bool.false_ne_true]
  split at hnode
  all_goals
    next hstarts =>
      simp only [hstarts, hnode, bind, Except.bind, hend, if_true]
      rfl

/-- A document of one block mapping, with the sign of its start or without it. -/
theorem exists_ofTokens {entries : List (String × Tree)} {body : List Token}
    (h : Composes (.blockMappingStart :: body) (.map entries {})) {signs : List Token}
    (hsigns : signs = [] ∨ signs = [.documentStart]) {located : List Located}
    (hlocated : located.map (·.token) =
      signs ++ (.blockMappingStart :: body ++ [.streamEnd])) :
    ∃ node, ofTokens located = .ok (some node) ∧ node.Holds (.map entries {}) := by
  rcases hsigns with rfl | rfl
  · obtain ⟨node, left, hnode, hleft, hholds⟩ :=
      h.compose false { handles := standardHandles } located [.streamEnd] hlocated
    obtain ⟨⟨_, start, stop⟩, body, rfl, rfl, -⟩ := List.map_eq_cons_iff.mp hlocated
    exact ⟨node, ofTokens_eq rfl hnode hleft, hholds⟩
  · obtain ⟨⟨_, start, stop⟩, body, rfl, rfl, hbody⟩ := List.map_eq_cons_iff.mp hlocated
    obtain ⟨node, left, hnode, hleft, hholds⟩ :=
      h.compose false { handles := standardHandles } body [.streamEnd] hbody
    obtain ⟨⟨_, start', stop'⟩, rest, rfl, rfl, -⟩ := List.map_eq_cons_iff.mp hbody
    exact ⟨node, ofTokens_eq rfl hnode hleft, hholds⟩

end Node

end Yaml

end LayeredConfig
