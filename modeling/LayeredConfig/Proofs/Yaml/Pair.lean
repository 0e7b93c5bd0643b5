import LayeredConfig.Proofs.Yaml.Document

/-! # Documents of one key

A key, its colon and a scalar that reaches to the end of the text. However the scalar is written,
the document is decoded to a map that has it under the key. -/

namespace LayeredConfig.Yaml

/-- A text behind the colon of a key in the first column that is read as one scalar. -/
def ReadsToEnd (rest : List Char) (plain : Bool) (text : String) : Prop :=
  ∀ ⦃s : Scanner⦄ ⦃found : Blocks⦄, s.Behind rest found → found.indent = 0 →
    ∃ last, Scanner.run s = .ok last ∧
      last.blocks.tokens = ((found.write [.scalar plain text]).close (-1)).tokens ++ [.streamEnd]

/-- A scalar within a line, and line breaks behind it. -/
theorem Scanner.Spells.readsToEnd {chars : List Char} {plain : Bool} {text : String}
    (h : Spells chars plain text) (count : Nat) :
    ReadsToEnd (' ' :: (chars ++ List.replicate count '\n')) plain text := by
  intro s found hbehind hindent
  obtain ⟨next, hrun, hnext⟩ := hbehind.value h (.done count) (by rw [hindent]; exact le_rfl)
  rw [hrun]
  exact hnext.finish

/-- A scalar in double quotes in the lines below its key, the last of which ends. -/
theorem readsToEnd_below {width : Nat} (hwidth : 0 < width) {chars text : List Char}
    (hread : quotedScalar true chars = .ok (text, ['\n'])) :
    ReadsToEnd (' ' :: '\n' :: (List.replicate width ' ' ++ '"' :: chars)) false
      (String.ofList text) := by
  intro s found hbehind hindent
  have hblank : Scanner.skipBlank (' ' :: '\n' :: (List.replicate width ' ' ++ '"' :: chars)) =
      ('"' :: chars, true) := by
    have hline := Scanner.skipBlank_spaces_lineFeed 1 (List.replicate width ' ' ++ '"' :: chars)
    rwa [Scanner.skipBlank_spaces width (by decide) (by decide)] at hline
  have hskip : s.skip = { s.moveTo ('"' :: chars) with keyAllowed := true } := by
    rw [Scanner.skip_eq (.inl hbehind.index), hbehind.rest, hblank, Scanner.inFlow, hbehind.flow]
    simp
  have hstands : s.skip.Stands ('"' :: chars) found := hskip ▸ hbehind.toStands.moved _ _
  have hcolumn : s.skip.position.column = width := by
    rw [hskip]
    show (s.position.behind s.rest ('"' :: chars)).column = width
    rw [hbehind.rest]
    exact s.position.column_behind_line [' '] width ('"' :: chars)
  have hunwind : s.skip.unwind s.skip.position.column = s.skip := by
    apply Scanner.unwind_of_le hstands.flow
    rw [hstands.blocks, hindent]
    omega
  let next := ({ s.skip with candidate := some s.skip.here, keyAllowed := false } : Scanner).take
    (.scalar false (String.ofList text)) ['\n']
  have htoken : s.skip.token '"' chars = .ok next := by
    have hsave := Scanner.saveCandidate_eq (by rw [hskip]) hstands.flow hstands.candidate
    have hdrop : s.skip.rest.drop 1 = chars := by
      rw [hstands.rest]
      rfl
    have hnode : s.skip.token '"' chars = s.skip.node fun t =>
        (quotedScalar true t).map fun read => (.scalar false (String.ofList read.1), read.2) := by
      simp [Scanner.token]
    rw [hnode, Scanner.node, hsave]
    simp only [bind, Except.bind, hdrop, hread, Except.map]
    rfl
  have hnext : next.skip = { next.moveTo [] with keyAllowed := true } := by
    have hinner : next.inFlow = false := by
      show (!s.skip.flow.isEmpty) = false
      rw [hstands.flow]
      rfl
    have hfeed : Scanner.skipBlank next.rest = ([], true) := by
      show Scanner.skipBlank ['\n'] = ([], true)
      rw [Scanner.skipBlank_lineFeed, Scanner.skipBlank_nil]
    rw [Scanner.skip_eq (.inr (show ['\n'].head? ≠ some '\uFEFF' by simp)), hfeed, hinner]
    simp
  have hshorter : next.rest.length ≤ chars.length := by
    show ['\n'].length ≤ chars.length
    cases chars with
    | nil => rw [quotedScalar] at hread; cases hread
    | cons c chars => simp
  rw [hstands.run (by rw [hunwind]; exact htoken) hshorter]
  apply Scanner.exists_run_end
  · rw [hnext]
    rfl
  · rw [hnext]
    exact hstands.flow
  · rw [hnext, ← hstands.blocks]
    show next.blocks = _
    exact Scanner.blocks_take (.scalar false (String.ofList text)) ['\n'] _
  · -- The scalar is deeper than the open mapping, so it need not be a key.
    intro candidate hcandidate
    rw [hnext] at hcandidate
    obtain rfl := Option.some.inj hcandidate
    have hparent : s.skip.indent = 0 := by
      rw [← hindent, ← hstands.blocks]
      rfl
    show (s.skip.indent == (s.skip.position.column : Int)) = false
    rw [hparent, hcolumn]
    exact beq_false_of_ne (by omega)

variable {key value : String} {rest : List Char} {plain : Bool} {tree : Tree}

/-- A document of a key and a scalar is decoded to what the scalar stands for under that key. -/
theorem exists_decode_pair (hkey : ReadsAsKey key) (hvalue : ReadsToEnd rest plain value)
    (hgap : startsGap rest = true) (hreadable : ∀ c ∈ rest, isReadable c = true)
    (hholds : ∀ start,
      (Node.scalar (if plain then resolve value else coreTag "str") value start).Holds tree)
    {text : String} (htext : text.toList = key.toList ++ ':' :: rest) (info : DocumentInfo) :
    ∃ found, decode info (Text.toBytes text) = .ok found ∧
      found.withoutOrigins = .map [(key, tree)] {} := by
  obtain ⟨c, more, hchars, hinner, hcomment⟩ := Scanner.head_key hkey.text
  have hmark : c ≠ '\uFEFF' := (isInline_iff.mp (hkey.text.inline c (by simp [hchars]))).2.2
  have hhead : text.toList = c :: (more ++ ':' :: rest) := by
    rw [htext, hchars]
    rfl
  have hmeets := meets_start hhead hinner hcomment hmark
  rw [htext] at hmeets
  obtain ⟨next, hrun, hnext⟩ := hmeets.key hkey.text hgap
  obtain ⟨last, hlast, htokens⟩ := hvalue hnext (Blocks.indent_key 0 _ _)
  have hbody : ((((⟨[], []⟩ : Blocks).key 0 (String.ofList key.toList)).write
      [.scalar plain value]).close (-1)).tokens = .blockMappingStart ::
        (keyedTokens (fun _ => [.scalar plain value]) [(key, tree)] ++ [.blockEnd]) := by
    rw [String.ofList_toList]
    rfl
  rw [hbody] at htokens
  have hscalar : ∀ entry ∈ [(key, tree)], Node.Composes [.scalar plain value] entry.2 := by
    simpa using Node.Composes.scalar hholds
  have hkeys : ∀ name ∈ Entries.keys [(key, tree)],
      splitSecret name = (name, false) ∧ resolve name ≠ coreTag "merge" := by
    simpa [Entries.keys] using ⟨hkey.secret, hkey.merge⟩
  have hnodup : (Entries.keys [(key, tree)]).Nodup := List.nodup_singleton key
  have hcomposes : Node.Composes (.blockMappingStart ::
      (keyedTokens (fun _ => [.scalar plain value]) [(key, tree)] ++ [.blockEnd]))
      (.map [(key, tree)] {}) := .map hscalar hnodup hkeys
  have hcolon : Text.isAllBlank text.toList = false :=
    List.all_eq_false.mpr ⟨':', by simp [htext], by decide⟩
  refine exists_decode_of_run hcomposes (.inl rfl) (htext ▸ hrun.trans hlast) htokens ?_ hcolon info
  rw [htext]
  exact List.forall_mem_append.mpr
    ⟨hkey.readable, List.forall_mem_cons.mpr ⟨rfl, hreadable⟩⟩

end LayeredConfig.Yaml
