import LayeredConfig.Config.Basic
import LayeredConfig.Proofs.Record.Preparation
import LayeredConfig.Proofs.Tree.Projection
import LayeredConfig.Record.Extract

/-! # Queries without a type

A query without a type, a hook and a validator answers with the data of the node at its key. That is
what a walk along the key finds in the answer to the query for the root. -/

namespace LayeredConfig

theorem ExtractOptions.extract_any {options : ExtractOptions} (h : options.hooks = [])
    (place : String) (data : Value) : options.extract place .any data = .ok data := by
  rw [extract, prepare, enter_of_unhooked h]
  change (options.leaf place Schema.any.admitsNull .any data).bind _ = _
  simp only [leaf, Schema.isExactly, Bool.not_true, Bool.and_false, Bool.false_eq_true, if_false,
    ite_self]
  rfl

namespace ConfigSettings

/-- Among the options that hold for all queries there is no hook and no validator. -/
def AsksPlainly (settings : ConfigSettings) : Prop :=
  ∀ query, QuerySettings.ofOptions settings.queryDefaults = .ok query →
    query.extraction.hooks = [] ∧ query.validator = none

theorem AsksPlainly.queryTree_eq {settings : ConfigSettings} (h : settings.AsksPlainly)
    {tree node : Tree} {key : String}
    (hnode : tree.fetch settings.delimiter (keyPath settings.delimiter key) = .ok node) :
    settings.queryTree tree key .any [] =
      (QuerySettings.ofOptions settings.queryDefaults).bind fun _ => node.toRounded := by
  rw [queryTree, List.append_nil]
  cases hquery : QuerySettings.ofOptions settings.queryDefaults with
  | error fault => rfl
  | ok query =>
      obtain ⟨hhooks, hvalidator⟩ := h query hquery
      simp only [bind, Except.bind, hnode]
      cases node.toRounded with
      | error fault => rfl
      | ok data => simp only [ExtractOptions.extract_any hhooks, hvalidator]; rfl

end ConfigSettings

namespace Config

variable {config : Config} {tree : Tree}

theorem fetch_eq (htree : config.tree = some tree) (key : String) :
    config.fetch key =
      tree.fetch config.settings.delimiter (keyPath config.settings.delimiter key) := by
  rw [fetch, requireTree, htree]
  rfl

/-- A plain query answers with the data of the node at its key, if its options are any at all. -/
theorem query_eq (htree : config.tree = some tree) (hplain : config.settings.AsksPlainly)
    {key : String} {node : Tree} (hnode : config.fetch key = .ok node) :
    config.query key .any [] =
      (QuerySettings.ofOptions config.settings.queryDefaults).bind fun _ => node.toRounded := by
  rw [query, requireTree, htree]
  exact hplain.queryTree_eq ((fetch_eq htree key).symm.trans hnode)

/-- The answer for the root is walked along the key to the answer for the key. -/
theorem query_eq_walk (htree : config.tree = some tree) (hplain : config.settings.AsksPlainly)
    (hquiet : tree.IsQuiet) {key : String} {node : Tree} (hnode : config.fetch key = .ok node) :
    (config.query key .any []).map some =
        (config.query "" .any []).map (Value.walk? (keyPath config.settings.delimiter key)) ∧
      ∀ settings, QuerySettings.ofOptions config.settings.queryDefaults = .ok settings →
        ∃ value, config.query key .any [] = .ok value := by
  have hroot : config.fetch "" = .ok tree := fetch_eq htree ""
  obtain ⟨data, hdata⟩ := Tree.exists_toRounded hquiet
  have hprojected : tree.projected false = .ok data := hdata
  obtain ⟨part, hpart, hwalk⟩ :=
    Tree.exists_of_fetch_projected hprojected ((fetch_eq htree key).symm.trans hnode)
  have hpart : node.toRounded = .ok part := hpart
  rw [query_eq htree hplain hnode, query_eq htree hplain hroot]
  cases QuerySettings.ofOptions config.settings.queryDefaults with
  | error fault => exact ⟨rfl, fun _ h => by cases h⟩
  | ok settings =>
      simp only [Except.bind, hdata, hpart, Except.map, hwalk]
      exact ⟨trivial, fun _ _ => ⟨part, rfl⟩⟩

end Config

/-! ## Navigation -/

/-- Navigation goes part by part along a path, and agrees with the projection into data. A path in
two parts leads to the node to which the second part leads from the end of the first, or else ends
in the class of the first failing step. Walking the data of the tree, exact or not, leads to the
data of the node, and so the answers to plain queries are found in the answer for the root. -/
theorem Tree.navigation_composes (tree : Tree) (hquiet : tree.IsQuiet) :
    (∀ delimiter path rest,
      (∀ node, tree.fetch delimiter (path ++ rest) = .ok node ↔
        ∃ between, tree.fetch delimiter path = .ok between ∧
          between.fetch delimiter rest = .ok node) ∧
      ∀ fault, tree.fetch delimiter (path ++ rest) = .error fault →
        ∃ cause, fault.category = cause.category ∧
          (tree.fetch delimiter path = .error cause ∨
            ∃ between, tree.fetch delimiter path = .ok between ∧
              between.fetch delimiter rest = .error cause)) ∧
    (∀ delimiter path fault, tree.fetch delimiter path = .error fault →
      ∃ before segment after between cause, path = before ++ segment :: after ∧
        tree.fetch delimiter before = .ok between ∧ between.child segment segment = .error cause ∧
        fault.category = cause.category ∧
        (cause.category = .notFound ∨ cause.category = .typeMismatch)) ∧
    (∀ exact delimiter path node, tree.fetch delimiter path = .ok node →
      ∃ data part, tree.projected exact = .ok data ∧ node.projected exact = .ok part ∧
        data.walk? path = some part) ∧
    ∀ config : Config, config.tree = some tree → config.settings.AsksPlainly →
      ∀ key node, config.fetch key = .ok node →
        (config.query key .any []).map some =
          (config.query "" .any []).map
            (Value.walk? (keyPath config.settings.delimiter key)) ∧
        ∀ settings, QuerySettings.ofOptions config.settings.queryDefaults = .ok settings →
          ∃ value, config.query key .any [] = .ok value := by
  refine ⟨fun delimiter path rest => ⟨fun node => fetch_append_eq_ok_iff, fun fault h => ?_⟩,
    fun delimiter path fault h => ?_, fun exact delimiter path node hnode => ?_,
    fun config htree hplain key node hnode => ?_⟩
  · exact exists_of_fetch_append_eq_error h
  · obtain ⟨before, segment, after, between, cause, hpath, hbefore, hcause, hclass⟩ :=
      exists_of_fetch_eq_error h
    exact ⟨before, segment, after, between, cause, hpath, hbefore, hcause, hclass,
      category_of_child_eq_error hcause⟩
  · obtain ⟨data, hdata⟩ := hquiet.exists_projected exact
    obtain ⟨part, hpart, hwalk⟩ := exists_of_fetch_projected hdata hnode
    exact ⟨data, part, hdata, hpart, hwalk⟩
  · exact Config.query_eq_walk htree hplain hquiet hnode

/-- The second port of a service is found through the list of ports, in the tree and in its data. -/
theorem Tree.navigation_composes_ports :
    let ports : Tree := array [leaf (some (.int 80)) {}, leaf (some (.int 443)) {}] {}
    let tree : Tree := map [("service", map [("ports", ports)] {})] {}
    let config : Config := { tree := some tree }
    tree.IsQuiet ∧
      tree.fetch "." (["service", "ports"] ++ ["1"]) = .ok (leaf (some (.int 443)) {}) ∧
      (∃ cause, Category.notFound = cause.category ∧
        (tree.fetch "." ["service", "ports"] = .error cause ∨
          ∃ between, tree.fetch "." ["service", "ports"] = .ok between ∧
            between.fetch "." ["2"] = .error cause)) ∧
      config.settings.AsksPlainly ∧
      config.fetch "service.ports.1" = .ok (leaf (some (.int 443)) {}) ∧
      (config.query "service.ports.1" .any []).map some =
        (config.query "" .any []).map (Value.walk? (keyPath "." "service.ports.1")) := by
  intro ports tree config
  have hquiet : tree.IsQuiet := by
    simp [IsQuiet, tree, ports, nodes, nodesOfEntries, nodesOfItems, scalar?]
  have hplain : config.settings.AsksPlainly := by
    intro query hquery
    cases hquery
    exact ⟨rfl, rfl⟩
  obtain ⟨happend, -, -, hqueries⟩ := navigation_composes tree hquiet
  have hpath : keyPath config.settings.delimiter "service.ports.1" = ["service", "ports", "1"] := by
    decide +kernel
  have hnode : config.fetch "service.ports.1" = .ok (leaf (some (.int 443)) {}) := by
    rw [Config.fetch_eq (rfl : config.tree = some tree), hpath]
    rfl
  obtain ⟨hfound, hfault⟩ := happend "." ["service", "ports"] ["1"]
  refine ⟨hquiet, (hfound _).mpr ⟨ports, rfl, rfl⟩, ?_, hplain, hnode,
    (hqueries config rfl hplain _ _ hnode).1⟩
  exact (happend "." ["service", "ports"] ["2"]).2 (.indexOutOfRange "service.ports.2" 2) rfl

end LayeredConfig
