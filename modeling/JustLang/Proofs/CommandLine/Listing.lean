import JustLang.Proofs.CommandLine.Run
import JustLang.Proofs.Token.Display

namespace JustLang

namespace Text

theorem lines_flatMap_asLine {ls : List Text} (h : ∀ s ∈ ls, '\n' ∉ s) :
    lines (ls.flatMap asLine) = ls.map asLine := by
  induction ls with
  | nil => rfl
  | cons s ls ih =>
      have hs := h s List.mem_cons_self
      have hls := ih fun t ht => h t (List.mem_cons_of_mem s ht)
      rw [List.flatMap_cons, asLine, List.append_assoc, List.singleton_append,
        lines_append_newline hs, hls]
      rfl

theorem flatMap_asLine_inj {ls ls' : List Text} (h : ∀ s ∈ ls, '\n' ∉ s) (h' : ∀ s ∈ ls', '\n' ∉ s)
    (heq : ls.flatMap asLine = ls'.flatMap asLine) : ls = ls' := by
  have hlines := congrArg lines heq
  rw [lines_flatMap_asLine h, lines_flatMap_asLine h'] at hlines
  refine List.map_injective_iff.mpr ?_ hlines
  intro s t hst
  exact List.append_cancel_right hst

end Text

namespace Lexer

variable {l : Lexer} {u : Token}

theorem legible_of_mem_recover (h : u ∈ l.recover.1.tokens) : u.Legible := by
  induction l using induction_on_step with
  | finish l last hstep =>
      rw [recover_of_finish hstep] at h
      cases h
  | token l t next hstep ih =>
      rw [recover_of_token hstep] at h
      rcases List.mem_cons.mp h with rfl | h
      · exact Token.legible_of_hasKind (Lexeme.hasKind_of_read? (eq_of_token hstep).1)
      · exact ih h
  | fault l d before hstep ih =>
      rw [recover_of_fault hstep] at h
      rcases List.mem_cons.mp h with rfl | h
      · exact .inl rfl
      · exact ih h

end Lexer

namespace Text

variable {source source' : Text} {name? name?' : Option String}

-- The tokens, set at their columns, spell the source up to its last spaces.
theorem exists_rebuild?_eq (source : Text) (name? : Option String) :
    ∃ x i, Token.rebuild? 0 (source.recover name?).tokens = some x ∧
      source = x ++ List.replicate i ' ' := by
  obtain ⟨tiles, last, h, htokens⟩ := Lexer.exists_tiles (Lexer.ofText source name?)
  have htokens : tiles.map Tile.token = (source.recover name?).tokens := htokens
  refine ⟨tiles.flatMap Tile.text, last.length, ?_, ?_⟩
  · rw [← htokens]
    exact h.rebuild?
  · rw [← List.eq_replicate_of_mem h.last_spaces]
    exact h.rest_eq

theorem eq_up_to_spaces (h : (source.recover name?).tokens = (source'.recover name?').tokens) :
    ∃ x i j, source = x ++ List.replicate i ' ' ∧ source' = x ++ List.replicate j ' ' := by
  obtain ⟨x, i, hx, hi⟩ := exists_rebuild?_eq source name?
  obtain ⟨y, j, hy, hj⟩ := exists_rebuild?_eq source' name?'
  rw [h, hy] at hx
  obtain rfl : y = x := Option.some.inj hx
  exact ⟨y, i, j, hi, hj⟩

theorem display_inj_of_mem_recover {t u : Token} (ht : t ∈ (source.recover name?).tokens)
    (hu : u ∈ (source'.recover name?').tokens) (h : t.display = u.display) : t = u :=
  Token.display_inj (Lexer.legible_of_mem_recover ht) (Lexer.legible_of_mem_recover hu) h

theorem newline_notMem_displays (source : Text) (name? : Option String) :
    ∀ s ∈ (source.recover name?).tokens.map Token.display, '\n' ∉ s := by
  intro s hs
  obtain ⟨t, ht, rfl⟩ := List.mem_map.mp hs
  exact Token.newline_notMem_display (Lexer.emitted_of_mem_recover ht)

end Text

namespace CommandLine

theorem tokens_eq_of_listing {source source' : Text} {name? name?' : Option String}
    (h : listing (source.recover name?).tokens = listing (source'.recover name?').tokens) :
    (source.recover name?).tokens = (source'.recover name?').tokens := by
  have hdisplays : (source.recover name?).tokens.map Token.display =
      (source'.recover name?').tokens.map Token.display := by
    apply Text.flatMap_asLine_inj (source.newline_notMem_displays name?)
      (source'.newline_notMem_displays name?')
    simpa only [listing, List.flatMap_map] using h
  have hlength : (source.recover name?).tokens.length = (source'.recover name?').tokens.length := by
    simpa only [List.length_map] using congrArg List.length hdisplays
  refine List.ext_getElem hlength fun i hi hi' => ?_
  have hi? := congrArg (·[i]?) hdisplays
  have hdisplay : ((source.recover name?).tokens[i]).display =
      ((source'.recover name?').tokens[i]).display := by
    simpa [List.getElem?_eq_getElem hi, List.getElem?_eq_getElem hi'] using hi?
  exact Text.display_inj_of_mem_recover (List.getElem_mem hi) (List.getElem_mem hi') hdisplay

-- No two tokens that a scan can find are shown alike. If two files are listed alike, then they have
-- the same tokens at the same places, and are the same text but for spaces at the end.
theorem listing_determines_source (arguments arguments' : Arguments)
    {content content' : Except ReadError ByteArray} {source source' : Text}
    (hsource : content.bind decode = .ok source) (hsource' : content'.bind decode = .ok source') :
    (∀ t ∈ (source.recover (fileName? arguments.file)).tokens,
      ∀ u ∈ (source'.recover (fileName? arguments'.file)).tokens,
        t.display = u.display → t = u) ∧
    ((arguments.recovering.run content).out = (arguments'.recovering.run content').out →
      (source.recover (fileName? arguments.file)).tokens =
        (source'.recover (fileName? arguments'.file)).tokens ∧
      ∃ x i j, source = x ++ List.replicate i ' ' ∧ source' = x ++ List.replicate j ' ') := by
  refine ⟨fun t ht u hu => Text.display_inj_of_mem_recover ht hu, fun hout => ?_⟩
  rw [run_of_ok arguments.recovering hsource, run_of_ok arguments'.recovering hsource'] at hout
  have htokens := tokens_eq_of_listing hout
  exact ⟨htokens, Text.eq_up_to_spaces htokens⟩

theorem listing_determines_source_at_trailing_space :
    (Except.ok "~".toByteArray).bind decode = .ok "~".toList ∧
    (Except.ok "~ ".toByteArray).bind decode = .ok "~ ".toList ∧
    (Arguments.run ⟨some "a.just", true, false⟩ (.ok "~".toByteArray)).out =
      (Arguments.run ⟨some "a.just", true, false⟩ (.ok "~ ".toByteArray)).out ∧
    ∃ x i j, "~".toList = x ++ List.replicate i ' ' ∧ "~ ".toList = x ++ List.replicate j ' ' := by
  have hshort : (Except.ok "~".toByteArray).bind decode = .ok "~".toList := by decide +kernel
  have hlong : (Except.ok "~ ".toByteArray).bind decode = .ok "~ ".toList := by decide +kernel
  -- whatever the name of the file is, the scan takes two steps
  have htokens (name? : Option String) :
      (Text.recover "~".toList name?).tokens = (Text.recover "~ ".toList name?).tokens := by
    have hfault := Lexer.recover_of_fault (l := Lexer.ofText "~".toList name?) rfl
    have hfault' := Lexer.recover_of_fault (l := Lexer.ofText "~ ".toList name?) rfl
    rw [Text.recover, Text.recover, hfault, hfault', Lexer.recover_of_finish rfl,
      Lexer.recover_of_finish rfl]
    rfl
  have hout := congrArg listing (htokens (fileName? "a.just"))
  obtain ⟨-, h⟩ := listing_determines_source ⟨some "a.just", true, false⟩
    ⟨some "a.just", true, false⟩ hshort hlong
  exact ⟨hshort, hlong, hout, (h hout).2⟩

end CommandLine

end JustLang
