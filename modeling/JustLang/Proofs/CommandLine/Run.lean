import JustLang.CommandLine.Run
import JustLang.Proofs.Diagnostic.Report
import JustLang.Proofs.Lexer.Tiling

namespace JustLang

namespace Token

variable {t : Token}

theorem newline_notMem_name (kind : Kind) : '\n' ∉ kind.name.toList := by
  cases kind <;> decide

-- The newline token is the only one with a newline in its text, and its text is not shown.
theorem newline_notMem_display (h : t.Emitted) : '\n' ∉ t.display := by
  have hline : '\n' ∉ Text.ofNat t.line := Text.notMem_ofNat (by decide) _
  have hcolumn : '\n' ∉ Text.ofNat t.column := Text.notMem_ofNat (by decide) _
  have hname := newline_notMem_name t.kind
  rw [display]
  split
  · next hshown =>
      have htext : '\n' ∉ t.text := by
        intro hmem
        have hkind := h.newline_iff.mpr (h.eq_of_newline_mem hmem)
        rw [isOneOf, hkind] at hshown
        exact absurd hshown (by decide)
      simp [hline, hcolumn, hname, htext]
  · simp [hline, hcolumn, hname]

end Token

namespace Text

variable {source : Text} {name? : Option String} {d : Diagnostic}

theorem exists_report?_of_mem_errors (h : d ∈ (source.recover name?).errors) :
    ∃ report, d.report? source = some report ∧ report ≠ [] := by
  obtain ⟨u, -, after, p, c, s, hpassed⟩ := Lexer.exists_passedAt_of_mem_errors h
  exact Diagnostic.exists_report?_of_faultAt hpassed.toFaultAt

-- Every token of a listing has one line.
theorem newline_notMem_display_of_tokens {tokens : List Token}
    (h : source.tokens name? = .ok tokens) : ∀ t ∈ tokens, '\n' ∉ t.display := by
  have hrecover : source.recover name? = ⟨tokens, []⟩ := Lexer.recover_of_drain_ok rfl h
  intro t ht
  have hmem : t ∈ (source.recover name?).tokens := by rwa [hrecover]
  exact Token.newline_notMem_display (Lexer.emitted_of_mem_recover hmem)

end Text

namespace CommandLine

variable {content : Except ReadError ByteArray} {source : Text}
  {name? : Option String} {d : Diagnostic} {tokens : List Token}

-- The same arguments without recovery, and with it.
def Arguments.strict (arguments : Arguments) : Arguments := { arguments with recover := false }

def Arguments.recovering (arguments : Arguments) : Arguments := { arguments with recover := true }

theorem run_of_ok (arguments : Arguments) (h : content.bind decode = .ok source) :
    arguments.run content =
      listTokens source (fileName? arguments.file) arguments.recover := by
  rw [Arguments.run, h]

theorem listTokens_of_ok (h : source.tokens name? = .ok tokens) (recovering : Bool) :
    listTokens source name? recovering = ⟨0, listing tokens, []⟩ := by
  cases recovering with
  | false => simp only [listTokens, h, Bool.false_eq_true, if_false]
  | true =>
      have hrecover : source.recover name? = ⟨tokens, []⟩ := Lexer.recover_of_drain_ok rfl h
      simp only [listTokens, hrecover, if_true]
      rfl

-- The reports of errors, one by one. Where there is none, nothing is shown.
def reportTexts (source : Text) (errors : List Diagnostic) : List Text :=
  errors.map fun d => (d.report? source).getD []

theorem reports_eq_flatten (source : Text) (errors : List Diagnostic) :
    reports source errors = (reportTexts source errors).flatten := List.flatMap_def

-- Every error that recovery finds is shown.
theorem map_report?_errors (source : Text) (name? : Option String) :
    (source.recover name?).errors.map (·.report? source) =
      (reportTexts source (source.recover name?).errors).map some := by
  rw [reportTexts, List.map_map]
  apply List.map_congr_left
  intro d hd
  obtain ⟨report, hreport, -⟩ := Text.exists_report?_of_mem_errors hd
  simp [hreport]

theorem listTokens_of_error (h : source.tokens name? = .error d) :
    ∃ report reports, report ≠ [] ∧
      (source.recover name?).errors.map (·.report? source) = (report :: reports).map some ∧
      listTokens source name? false = ⟨1, [], report⟩ ∧
      listTokens source name? true =
        ⟨1, listing (source.recover name?).tokens, report ++ reports.flatten⟩ := by
  obtain ⟨es, herrors⟩ : ∃ es, (source.recover name?).errors = d :: es :=
    Lexer.exists_errors_of_drain_error rfl h
  obtain ⟨report, hreport, hne⟩ : ∃ report, d.report? source = some report ∧ report ≠ [] :=
    Text.exists_report?_of_mem_errors (herrors ▸ List.mem_cons_self)
  have htexts : ∀ es, reportTexts source (d :: es) = report :: reportTexts source es := by
    intro es
    simp [reportTexts, hreport]
  refine ⟨report, reportTexts source es, hne, ?_, ?_, ?_⟩
  · rw [map_report?_errors, herrors, htexts]
  · have hstrict : reports source [d] = report := by
      rw [reports_eq_flatten, htexts]
      exact List.append_nil report
    simp only [listTokens, h, Bool.false_eq_true, if_false, hstrict]
  · have hrecovering : reports source (d :: es) = report ++ (reportTexts source es).flatten := by
      rw [reports_eq_flatten, htexts, List.flatten_cons]
    simp only [listTokens, herrors, hrecovering, if_true]
    rfl

-- Whether recovery is asked for makes no difference to how a run ends, nor to what it prints if all
-- is well. If something is wrong, a strict run reports the first of the errors and no more.
theorem run_modes_agree (arguments : Arguments) (content : Except ReadError ByteArray) :
    (∀ source, content.bind decode = .ok source →
      (∀ tokens, source.tokens (fileName? arguments.file) = .ok tokens →
        arguments.strict.run content =
            ⟨0, tokens.flatMap fun t => t.display ++ ['\n'], []⟩ ∧
          arguments.recovering.run content = arguments.strict.run content ∧
          ∀ t ∈ tokens, '\n' ∉ t.display) ∧
      ∀ d, source.tokens (fileName? arguments.file) = .error d →
        ∃ report reports, report ≠ [] ∧
          (source.recover (fileName? arguments.file)).errors.map (·.report? source) =
            (report :: reports).map some ∧
          arguments.strict.run content = ⟨1, [], report⟩ ∧
          arguments.recovering.run content =
            ⟨1, listing (source.recover (fileName? arguments.file)).tokens,
              report ++ reports.flatten⟩) ∧
    ∀ e, content.bind decode = .error e →
      (arguments.strict.run content).code = 2 ∧ (arguments.strict.run content).out = [] ∧
        arguments.recovering.run content = arguments.strict.run content := by
  refine ⟨fun source hsource => ⟨?_, ?_⟩, ?_⟩
  · intro tokens htokens
    have hstrict := (run_of_ok arguments.strict hsource).trans (listTokens_of_ok htokens false)
    have hrecovering :=
      (run_of_ok arguments.recovering hsource).trans (listTokens_of_ok htokens true)
    exact ⟨hstrict, hrecovering.trans hstrict.symm, Text.newline_notMem_display_of_tokens htokens⟩
  · intro d hd
    obtain ⟨report, reports, hne, htexts, hstrict, hrecovering⟩ := listTokens_of_error hd
    exact ⟨report, reports, hne, htexts, (run_of_ok arguments.strict hsource).trans hstrict,
      (run_of_ok arguments.recovering hsource).trans hrecovering⟩
  · intro e he
    simp only [Arguments.run, he]
    exact ⟨trivial, trivial, rfl⟩

theorem run_modes_agree_at_fault :
    (Except.ok "~".toByteArray).bind decode = .ok "~".toList ∧
    Text.tokens "~".toList (fileName? "a.just") =
      .error ⟨.unrecognisedCharacter '~', ⟨⟨0, 0, 0⟩, (fileName? "a.just").getD "shell"⟩⟩ ∧
    ∃ report reports listing, report ≠ [] ∧
      Arguments.run ⟨some "a.just", false, false⟩ (.ok "~".toByteArray) = ⟨1, [], report⟩ ∧
      Arguments.run ⟨some "a.just", true, false⟩ (.ok "~".toByteArray) =
        ⟨1, listing, report ++ List.flatten reports⟩ := by
  have hsource : (Except.ok "~".toByteArray).bind decode = .ok "~".toList := by decide +kernel
  have hstep := Lexer.step_of_read?_eq_none (l := Lexer.ofText "~".toList (fileName? "a.just"))
    (c := '~') (s := []) rfl (by decide +kernel)
  have hfault := congrArg Prod.fst (Lexer.drain_of_error (Lexer.pull_of_fault rfl hstep))
  obtain ⟨hrun, -⟩ := run_modes_agree ⟨some "a.just", false, false⟩ (.ok "~".toByteArray)
  obtain ⟨report, reports, hne, -, hstrict, hrecovering⟩ := (hrun _ hsource).2 _ hfault
  exact ⟨hsource, hfault, report, reports, _, hne, hstrict, hrecovering⟩

end CommandLine

end JustLang
