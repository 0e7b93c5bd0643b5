import LayeredConfig.Config.Output
import LayeredConfig.Proofs.Secrets.Redaction
import LayeredConfig.Proofs.Tree.Nodes
import Mathlib.Data.List.Forall2

/-! # What redaction leaves

Redaction forgets what is held at secret nodes and below them, and nothing else: trees are redacted
alike exactly when they agree everywhere but there. A redacted tree has nothing left to redact, and
as far as no secret node is met it is navigated as the tree is. -/

namespace LayeredConfig.Tree

/-! ## Agreement outside secrets -/

/-- The same tree, except that nodes which are secret in both may hold anything in either. -/
inductive AgreeOpenly : Tree → Tree → Prop
  | secret {first second : Tree} (hmark : first.mark = second.mark)
      (hsecret : first.isSecret = true) : AgreeOpenly first second
  | leaf (value : Option Scalar) (mark : Mark) : AgreeOpenly (leaf value mark) (leaf value mark)
  | map {entries others : List (String × Tree)} (mark : Mark)
      (hkeys : Entries.keys entries = Entries.keys others)
      (h : ∀ pair ∈ entries.zip others, AgreeOpenly pair.1.2 pair.2.2) :
      AgreeOpenly (map entries mark) (map others mark)
  | array {items others : List Tree} (mark : Mark) (hlength : items.length = others.length)
      (h : ∀ pair ∈ items.zip others, AgreeOpenly pair.1 pair.2) :
      AgreeOpenly (array items mark) (array others mark)

variable {first second : Tree}

theorem AgreeOpenly.redacted_eq (h : AgreeOpenly first second) :
    first.redacted = second.redacted := by
  induction h with
  | secret hmark hsecret => exact redacted_eq_of_isSecret hmark hsecret
  | leaf value mark => rfl
  | @map entries others mark hkeys _ ih =>
      cases hsecret : (Tree.map entries mark).isSecret with
      | true => exact redacted_eq_of_isSecret rfl hsecret
      | false =>
          have hothers : (Tree.map others mark).isSecret = false := hsecret
          obtain ⟨hlength, hkeys⟩ := map_eq_map_iff_zip.mp hkeys
          rw [redacted_map hsecret, redacted_map hothers, map_eq_map_iff_zip.mpr]
          exact ⟨hlength, fun pair hpair => Prod.ext (hkeys pair hpair) (ih pair hpair)⟩
  | @array items others mark hlength _ ih =>
      cases hsecret : (Tree.array items mark).isSecret with
      | true => exact redacted_eq_of_isSecret rfl hsecret
      | false =>
          have hothers : (Tree.array others mark).isSecret = false := hsecret
          rw [redacted_array hsecret, redacted_array hothers,
            map_eq_map_iff_zip.mpr ⟨hlength, ih⟩]

/-- Equal marks are enough where either tree is secret. -/
theorem AgreeOpenly.of_mark_eq (hmark : first.mark = second.mark)
    (h : first.isSecret = false → second.isSecret = false → AgreeOpenly first second) :
    AgreeOpenly first second := by
  cases hfirst : first.isSecret with
  | true => exact .secret hmark hfirst
  | false =>
      refine h hfirst ?_
      rw [isSecret, ← hmark]
      exact hfirst

theorem agreeOpenly_of_redacted_eq (h : first.redacted = second.redacted) :
    AgreeOpenly first second := by
  have hmark {first second : Tree} (h : first.redacted = second.redacted) :
      first.mark = second.mark := by rw [← mark_redacted, h, mark_redacted]
  induction first using Tree.induction generalizing second with
  | leaf value mark =>
      refine .of_mark_eq (hmark h) fun hfirst hsecond => ?_
      rw [redacted_leaf hfirst] at h
      cases second with
      | leaf other mark' =>
          rw [redacted_leaf hsecond] at h
          cases h
          exact .leaf value mark
      | map others mark' => cases h.trans (redacted_map hsecond)
      | array others mark' => cases h.trans (redacted_array hsecond)
  | map entries mark ih =>
      refine .of_mark_eq (hmark h) fun hfirst hsecond => ?_
      rw [redacted_map hfirst] at h
      cases second with
      | leaf other mark' => cases h.trans (redacted_leaf hsecond)
      | map others mark' =>
          rw [redacted_map hsecond] at h
          obtain ⟨hentries, rfl⟩ := Tree.map.inj h
          obtain ⟨hlength, hpairs⟩ := map_eq_map_iff_zip.mp hentries
          refine .map mark (map_eq_map_iff_zip.mpr ⟨hlength, fun pair hpair => ?_⟩)
            fun pair hpair => ?_
          · exact (Prod.mk.inj (hpairs pair hpair)).1
          · exact ih pair.1.1 pair.1.2 (List.of_mem_zip hpair).1
              (Prod.mk.inj (hpairs pair hpair)).2
      | array others mark' => cases h.trans (redacted_array hsecond)
  | array items mark ih =>
      refine .of_mark_eq (hmark h) fun hfirst hsecond => ?_
      rw [redacted_array hfirst] at h
      cases second with
      | leaf other mark' => cases h.trans (redacted_leaf hsecond)
      | map others mark' => cases h.trans (redacted_map hsecond)
      | array others mark' =>
          rw [redacted_array hsecond] at h
          obtain ⟨hitems, rfl⟩ := Tree.array.inj h
          obtain ⟨hlength, hpairs⟩ := map_eq_map_iff_zip.mp hitems
          exact .array mark hlength fun pair hpair =>
            ih pair.1 (List.of_mem_zip hpair).1 (hpairs pair hpair)

/-- Redaction forgets exactly what trees that agree openly may differ in. -/
theorem agreeOpenly_iff : AgreeOpenly first second ↔ first.redacted = second.redacted :=
  ⟨AgreeOpenly.redacted_eq, agreeOpenly_of_redacted_eq⟩

/-! ## Redacted trees -/

/-- Nothing is left to redact. -/
theorem redacted_redacted (tree : Tree) : tree.redacted.redacted = tree.redacted := by
  induction tree using Tree.induction with
  | leaf value mark =>
      cases hsecret : mark.secret <;> simp [redacted, hsecret]
  | map entries mark ih =>
      cases hsecret : mark.secret with
      | true => simp [redacted, hsecret]
      | false => simpa [redacted, hsecret, redactedEntries_eq] using ih
  | array items mark ih =>
      cases hsecret : mark.secret with
      | true => simp [redacted, hsecret]
      | false => simpa [redacted, hsecret, redactedItems_eq] using ih

/-- Without secrets there is nothing to redact. -/
theorem redacted_of_forall_open {tree : Tree} (h : ∀ node ∈ tree.nodes, node.isSecret = false) :
    tree.redacted = tree := by
  induction tree using Tree.induction with
  | leaf value mark => exact redacted_leaf (h _ (mem_nodes_self _))
  | map entries mark ih =>
      have hchildren : ∀ entry ∈ entries, (entry.1, entry.2.redacted) = entry :=
        fun entry hentry => Prod.ext rfl
          (ih entry.1 entry.2 hentry fun node hnode => h node (mem_nodes_child hentry hnode))
      rw [redacted_map (h _ (mem_nodes_self _)), List.map_congr_left hchildren, List.map_id']
  | array items mark ih =>
      have hitems : ∀ item ∈ items, item.redacted = item :=
        fun item hitem => ih item hitem fun node hnode => h node (mem_nodes_item hitem hnode)
      rw [redacted_array (h _ (mem_nodes_self _)), List.map_congr_left hitems, List.map_id']

/-! ## Noninterference -/

/-- A document in which secrets are kept back is written from the redacted tree alone. -/
theorem treeText_eq (settings : ConfigSettings) {output : OutputSettings}
    (hredact : output.redact = true) (h : first.redacted = second.redacted) :
    Config.treeText settings output first = Config.treeText settings output second := by
  rw [Config.treeText, Config.treeText, Config.concealed, Config.concealed, hredact]
  simp only [if_true, h]

/-- Redaction is a projection that shows nothing of secrets. Trees that differ in secrets alone, be
it in value, shape or what is below, come out as one tree, and so as one text in every format. What
came out stays as it is, and so does a tree without secrets. Navigation passes through redaction
down to the first secret node, and fails alike. -/
theorem redacted_projection (first second : Tree) :
    (AgreeOpenly first second ↔ first.redacted = second.redacted) ∧
      (AgreeOpenly first second →
        (∀ encoder : Encoder,
          encoder.encode first.redacted.toValue = encoder.encode second.redacted.toValue ∧
            encoder.encodeOrigins first.redacted = encoder.encodeOrigins second.redacted) ∧
          ∀ settings (output : OutputSettings), output.redact = true →
            Config.treeText settings output first = Config.treeText settings output second) ∧
      first.redacted.redacted = first.redacted ∧
      ((∀ node ∈ first.nodes, node.isSecret = false) → first.redacted = first) ∧
      ∀ delimiter path, first.OpenTo delimiter path →
        first.redacted.fetch delimiter path = (first.fetch delimiter path).map redacted := by
  refine ⟨agreeOpenly_iff, fun h => ⟨fun encoder => ?_, fun settings output hredact => ?_⟩,
    redacted_redacted first, redacted_of_forall_open, fun _ _ hopen => hopen.fetch_redacted⟩
  · rw [h.redacted_eq]
    exact ⟨rfl, rfl⟩
  · exact treeText_eq settings hredact h.redacted_eq

/-- A secret map and a secret number come out alike, in a map and in an array. -/
theorem redacted_projection_shapes :
    let secret : Mark := { origins := [⟨"app.yaml", 1, 1⟩], secret := true }
    let plain : Tree := map [("user", leaf (some (.text "ada")) {})] {}
    let inside (hidden : Tree) : Tree := map [("db", hidden), ("all", array [plain, hidden] {})] {}
    let first := inside (map [("password", leaf (some (.text "x")) secret)] secret)
    let second := inside (leaf (some (.int 5)) secret)
    AgreeOpenly first second ∧ first.redacted = second.redacted ∧
      Encoder.json.encode first.redacted.toValue = Encoder.json.encode second.redacted.toValue ∧
      Config.treeText {} {} first = Config.treeText {} {} second ∧
      (∀ node ∈ plain.nodes, node.isSecret = false) ∧ plain.redacted = plain ∧
      first.OpenTo "." ["all", "1"] ∧
      first.redacted.fetch "." ["all", "1"] = (first.fetch "." ["all", "1"]).map redacted := by
  intro secret plain inside first second
  have hhidden : AgreeOpenly (map [("password", leaf (some (.text "x")) secret)] secret)
      (leaf (some (.int 5)) secret) := .secret rfl rfl
  have hplain : AgreeOpenly plain plain := agreeOpenly_of_redacted_eq rfl
  have hagree : AgreeOpenly first second := by
    refine .map {} rfl (List.forall_mem_cons.mpr ⟨hhidden, List.forall_mem_singleton.mpr ?_⟩)
    refine .array {} rfl (List.forall_mem_cons.mpr ⟨hplain, List.forall_mem_singleton.mpr hhidden⟩)
  have hnone : ∀ node ∈ plain.nodes, node.isSecret = false := by decide
  have hopen : first.OpenTo "." ["all", "1"] := by
    intro above habove hne node hnode
    rcases List.prefix_cons_iff.mp habove with rfl | ⟨rest, rfl, hrest⟩
    · cases hnode
      rfl
    rcases List.prefix_cons_iff.mp hrest with rfl | ⟨last, rfl, hlast⟩
    · cases hnode
      rfl
    · cases List.prefix_nil.mp hlast
      exact (hne rfl).elim
  obtain ⟨hsame, htexts, -, -, hfetch⟩ := redacted_projection first second
  obtain ⟨hencoded, hwritten⟩ := htexts hagree
  exact ⟨hagree, hsame.mp hagree, (hencoded .json).1, hwritten {} {} rfl, hnone,
    (redacted_projection plain plain).2.2.2.1 hnone, hopen, hfetch "." ["all", "1"] hopen⟩

end LayeredConfig.Tree
