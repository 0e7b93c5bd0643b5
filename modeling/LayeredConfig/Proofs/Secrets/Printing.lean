import LayeredConfig.CommandLine.Run
import LayeredConfig.Proofs.Secrets.Redaction
import Mathlib

/-! # Printing without secrets

Trees that differ in secret values alone print the same, as a whole and at any key on whose way no
secret node is passed. A secret node that is passed hides nothing: the mark stands on the node
itself, and not on what is below it. -/

namespace LayeredConfig

namespace Tree

/-! ## Secret values -/

mutual

/-- The tree without the values at secret nodes and below them; where one was, there is null. -/
def blank (secret : Bool) : Tree → Tree
  | leaf value mark => leaf (if secret || mark.secret then value.map fun _ => .null else value) mark
  | map entries mark => map (blankEntries (secret || mark.secret) entries) mark
  | array items mark => array (blankItems (secret || mark.secret) items) mark

def blankEntries (secret : Bool) : List (String × Tree) → List (String × Tree)
  | [] => []
  | (key, child) :: rest => (key, blank secret child) :: blankEntries secret rest

def blankItems (secret : Bool) : List Tree → List Tree
  | [] => []
  | item :: rest => blank secret item :: blankItems secret rest

end

theorem blankEntries_eq (secret : Bool) (entries : List (String × Tree)) :
    blankEntries secret entries = entries.map fun entry => (entry.1, entry.2.blank secret) := by
  induction entries with
  | nil => rfl
  | cons entry rest ih => rw [blankEntries, ih, List.map_cons]

theorem blankItems_eq (secret : Bool) (items : List Tree) :
    blankItems secret items = items.map (blank secret) := by
  induction items with
  | nil => rfl
  | cons item rest ih => rw [blankItems, ih, List.map_cons]

theorem isEmpty_blank (secret : Bool) (tree : Tree) :
    (tree.blank secret).isEmpty = tree.isEmpty := by
  cases tree with
  | leaf value mark =>
      rw [blank]
      split
      · cases value <;> rfl
      · rfl
  | map entries mark =>
      rw [blank, blankEntries_eq]
      cases entries <;> rfl
  | array items mark =>
      rw [blank, blankItems_eq]
      cases items <;> rfl

/-- Redaction does not depend on secret values. -/
theorem redacted_blank (tree : Tree) : (tree.blank false).redacted = tree.redacted := by
  induction tree using Tree.induction with
  | leaf value mark =>
      cases hsecret : mark.secret <;> simp [blank, redacted, hsecret]
  | map entries mark ih =>
      cases hsecret : mark.secret with
      | true => simp [blank, redacted, hsecret]
      | false =>
          have hentries : ∀ entry ∈ entries, (entry.2.blank false).redacted = entry.2.redacted :=
            fun entry hmem => ih entry.1 entry.2 hmem
          simpa [blank, redacted, hsecret, blankEntries_eq, redactedEntries_eq] using hentries
  | array items mark ih =>
      cases hsecret : mark.secret with
      | true => simp [blank, redacted, hsecret]
      | false => simpa [blank, redacted, hsecret, blankItems_eq, redactedItems_eq] using ih

end Tree

/-! ## Documents -/

theorem Offered.foldAll_append {α σ : Type} (refuse : String → Fault) (step : σ → α → σ) (start : σ)
    (xs ys : List (Offered α)) :
    foldAll refuse step start (xs ++ ys) =
      foldAll refuse step start xs >>= fun state => foldAll refuse step state ys := by
  rw [foldAll, List.foldlM_append]
  rfl

namespace Config

/-- A document depends on a tree by what is not concealed of it, and by its being empty. -/
theorem output_eq {options : List (Offered OutputOption)} {config : Config} {first second : Tree}
    (hempty : first.isEmpty = second.isEmpty)
    (hconcealed : ∀ output,
      OutputSettings.ofOptions (config.settings.outputDefaults ++ options) = .ok output →
        concealed output first = concealed output second) :
    ({ config with tree := some first } : Config).output options =
      ({ config with tree := some second } : Config).output options := by
  have htext : ∀ output,
      OutputSettings.ofOptions (config.settings.outputDefaults ++ options) = .ok output →
        treeText config.settings output first = treeText config.settings output second := by
    intro output houtput
    rw [treeText, treeText, hconcealed output houtput]
  simp only [output, requireTree]
  cases houtput : OutputSettings.ofOptions (config.settings.outputDefaults ++ options) with
  | error fault => rfl
  | ok output =>
      cases honly : output.onlyDefaults with
      | true => simp only [bind, Traced.bind, Traced.ofExcept, honly]; rfl
      | false =>
          simp only [bind, Traced.bind, Traced.ofExcept, honly, hempty, htext output houtput,
            Bool.false_eq_true, if_false, pure, Traced.pure]

end Config

namespace CommandLine

variable {request : CompileRequest} {config : Config} {first second : Tree}

theorem redact_of_ofOptions {defaults : List (Offered OutputOption)} {output : OutputSettings}
    (h : OutputSettings.ofOptions (defaults ++ [Options.formatAs request.format,
      Options.includeOrigins (.bool request.origins), Options.redactSecrets (.bool request.redact),
      Options.includeDocumentation (.bool request.documentation.isSome)]) = .ok output) :
    output.redact = request.redact := by
  rw [OutputSettings.ofOptions, Offered.foldAll_append] at h
  cases hdefaults : Offered.foldAll .notMarshalOption OutputSettings.apply {} defaults with
  | error fault =>
      rw [hdefaults] at h
      cases h
  | ok settings =>
      rw [hdefaults] at h
      cases h
      rfl

theorem wholeText_eq_of_redacted_eq (hredact : request.redact = true)
    (hempty : first.isEmpty = second.isEmpty) (hredacted : first.redacted = second.redacted) :
    wholeText request { config with tree := some first } =
      wholeText request { config with tree := some second } := by
  rw [wholeText, wholeText, Config.output_eq hempty]
  intro output houtput
  rw [Config.concealed, Config.concealed, redact_of_ofOptions houtput, hredact]
  exact hredacted

theorem partText_of_redact (hredact : request.redact = true) (config : Config) :
    partText request config = (config.fetch request.key).map Tree.redacted >>=
      Config.encodedText .standard request.format request.origins := by
  rw [partText, hredact]
  cases config.fetch request.key <;> simp only [bind, Except.bind, Except.map, if_true]

theorem partText_eq_of_redacted_eq (hredact : request.redact = true)
    (hopen : first.OpenTo config.settings.delimiter
      (keyPath config.settings.delimiter request.key))
    (hredacted : first.redacted = second.redacted) :
    partText request { config with tree := some first } =
      partText request { config with tree := some second } := by
  have hfetch : (Config.fetch request.key { config with tree := some first }).map Tree.redacted =
      (Config.fetch request.key { config with tree := some second }).map Tree.redacted :=
    hopen.fetch_eq hredacted
  rw [partText_of_redact hredact, partText_of_redact hredact, hfetch]

/-- Printing keeps secrets back. Trees that differ in secret values alone are printed alike in any
format, with and without origins, if no secret node is passed on the way to the key. -/
theorem documentText_eq_of_blank_eq (hredact : request.redact = true)
    (hblank : first.blank false = second.blank false)
    (hopen : first.OpenTo config.settings.delimiter
      (keyPath config.settings.delimiter request.key)) :
    documentText request { config with tree := some first } =
      documentText request { config with tree := some second } := by
  have hredacted : first.redacted = second.redacted := by
    rw [← first.redacted_blank, hblank, second.redacted_blank]
  have hempty : first.isEmpty = second.isEmpty := by
    rw [← first.isEmpty_blank false, hblank, second.isEmpty_blank]
  rw [documentText, documentText, wholeText_eq_of_redacted_eq hredact hempty hredacted,
    partText_eq_of_redacted_eq hredact hopen hredacted]

/-- The key of a secret map is redacted whatever it holds. -/
theorem documentText_eq_secret_map :
    let database (password : String) : Tree :=
      .map [("db", .map [("password", .leaf (some (.text password)) {})] { secret := true })] {}
    let request : CompileRequest := { paths := ["app.yaml"], key := "db" }
    request.redact = true ∧ (database "one").blank false = (database "two").blank false ∧
      (database "one").OpenTo "." (keyPath "." "db") ∧
      documentText request { tree := some (database "one") } =
        documentText request { tree := some (database "two") } := by
  intro database request
  have hpath : keyPath "." "db" = ["db"] := by cbv
  have hopen : (database "one").OpenTo "." (keyPath "." "db") := by
    rw [hpath]
    intro above habove hne node hnode
    have habove : above = [] := by simpa [List.prefix_cons_iff, hne] using habove
    subst habove
    cases hnode
    rfl
  have hprinted :=
    @documentText_eq_of_blank_eq request {} (database "one") (database "two") rfl rfl hopen
  exact ⟨rfl, rfl, hopen, hprinted⟩

/-- The key below a secret map is not: the password itself is printed. -/
theorem documentText_below_secret_map :
    let database (password : String) : Tree :=
      .map [("db", .map [("password", .leaf (some (.text password)) {})] { secret := true })] {}
    let request : CompileRequest :=
      { paths := ["app.yaml"], format := "json", key := "db.password" }
    request.redact = true ∧ (database "one").blank false = (database "two").blank false ∧
      documentText request { tree := some (database "one") } = .ok "\"one\"" ∧
      documentText request { tree := some (database "two") } = .ok "\"two\"" := by
  intro database request
  refine ⟨rfl, rfl, ?_, ?_⟩
  · cbv
  · cbv

end CommandLine

end LayeredConfig
