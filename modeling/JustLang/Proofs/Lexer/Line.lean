import JustLang.Proofs.Lexer.Place
import JustLang.Proofs.Lexer.Shift

namespace JustLang

namespace Token

-- The same token so many lines further down.
def lower (lines : Nat) (t : Token) : Token := { t with line := t.line + lines }

theorem shift_eq_lower (bytes lines : Nat) : shift ⟨bytes, lines, 0⟩ = lower lines := by
  funext t
  simp only [shift, lower, Nat.zero_add, ite_self, Nat.add_comm lines]

end Token

namespace Diagnostic

def lower (bytes lines : Nat) (d : Diagnostic) : Diagnostic :=
  { d with
    position := { d.position with
      offset := d.position.offset + bytes
      line := d.position.line + lines } }

theorem shift_eq_lower (bytes lines : Nat) :
    shift ⟨bytes, lines, 0⟩ = lower bytes lines := by
  funext d
  simp only [shift, lower, Cursor.shift, Nat.zero_add, ite_self, Nat.add_comm bytes,
    Nat.add_comm lines]

end Diagnostic

namespace Lexer

variable {l last next before : Lexer} {u : Token} {d : Diagnostic} {s t : Text}

-- The lexer with more text at the end of what it is about to read.
def followedBy (l : Lexer) (t : Text) : Lexer := { l with rest := l.rest ++ t }

theorem pass_followedBy (hs : s <+: l.rest) (t : Text) :
    (l.followedBy t).pass s = (l.pass s).followedBy t := by
  have hdrop : (l.rest ++ t).drop s.length = l.rest.drop s.length ++ t :=
    List.drop_append_of_le_length hs.length_le
  simp only [pass, followedBy, hdrop]

section Newline

variable (l) (t)

theorem afterSpaces_followedBy :
    (l.followedBy ('\n' :: t)).afterSpaces = l.afterSpaces.followedBy ('\n' :: t) := by
  have hspaces : (l.rest ++ '\n' :: t).leadingSpaces = l.rest.leadingSpaces :=
    Text.takeWhile_append_cons (by decide) l.rest t
  rw [afterSpaces_eq_pass, afterSpaces_eq_pass, ← pass_followedBy l.leadingSpaces_isPrefix,
    ← hspaces]
  rfl

-- The lexer behind the newline, once all that comes before it has been read.
def below : Lexer := (l.followedBy ('\n' :: t)).pass ['\n']

end Newline

-- Where the input would have ended, a newline is read.
theorem step_followedBy_of_finish (h : l.step = .finish last) (t : Text) :
    (l.followedBy ('\n' :: t)).step =
      .token (last.locate ⟨.newline, ['\n']⟩) (last.below t) := by
  obtain ⟨rfl, hrest⟩ := eq_of_finish h
  have hspaces := l.afterSpaces_followedBy t
  have hread : Lexeme.read? (l.followedBy ('\n' :: t)).afterSpaces.rest =
      some ⟨.newline, ['\n']⟩ := by
    rw [hspaces, followedBy, hrest]
    exact Lexeme.read?_newline t
  rw [step_of_read? hread, hspaces]
  rfl

theorem step_followedBy_of_token (h : l.step = .token u next) (t : Text) :
    (l.followedBy ('\n' :: t)).step = .token u (next.followedBy ('\n' :: t)) := by
  obtain ⟨hr, hu, rfl⟩ := eq_of_token h
  have hspaces := l.afterSpaces_followedBy t
  have htext := (Lexeme.read?_text hr).2
  have hread : Lexeme.read? (l.followedBy ('\n' :: t)).afterSpaces.rest = some u.toLexeme := by
    rw [hspaces, followedBy]
    cases hrest : l.afterSpaces.rest with
    | nil =>
        rw [hrest] at hr
        cases hr
    | cons c s =>
        rw [hrest] at hr
        exact (Lexeme.read?_append_newline c s t).trans hr
  rw [step_of_read? hread, hspaces, pass_followedBy htext]
  exact congrArg (Step.token · _) hu.symm

theorem step_followedBy_of_fault (h : l.step = .fault d before) (t : Text) :
    (l.followedBy ('\n' :: t)).step = .fault d (before.followedBy ('\n' :: t)) := by
  obtain ⟨rfl, c, s, hrest, hr, rfl⟩ := eq_of_fault h
  have hspaces := l.afterSpaces_followedBy t
  have hrest' : (l.followedBy ('\n' :: t)).afterSpaces.rest = c :: (s ++ '\n' :: t) := by
    rw [hspaces, followedBy, hrest]
    rfl
  have hr' := (Lexeme.read?_append_newline c s t).trans hr
  rw [step_of_read?_eq_none hrest' hr', hspaces]
  rfl

-- Nothing behind the newline is passed over to go on.
theorem skip_followedBy_of_fault (h : l.step = .fault d before) (t : Text) :
    (before.followedBy ('\n' :: t)).skipped d = before.skipped d ∧
      (before.followedBy ('\n' :: t)).skip d = (before.skip d).followedBy ('\n' :: t) := by
  obtain ⟨rfl, c, s, hrest, hr, rfl⟩ := eq_of_fault h
  have hprefix : (Lexeme.skipped c s).text <+: l.afterSpaces.rest := by
    rw [hrest]
    exact Lexeme.skipped_isPrefix c s
  have hrest' : (l.afterSpaces.followedBy ('\n' :: t)).rest = c :: (s ++ '\n' :: t) := by
    rw [followedBy, hrest]
    rfl
  have hr' := (Lexeme.read?_append_newline c s t).trans hr
  rw [skipped_eq_locate hrest', skip_eq_pass hrest' hr', skipped_eq_locate hrest,
    skip_eq_pass hrest hr, Lexeme.skipped_append_newline, pass_followedBy hprefix]
  exact ⟨rfl, rfl⟩

-- All tokens of the text come before the newline, and all of what is below it behind it.
theorem recover_followedBy (l : Lexer) (t : Text) :
    (l.followedBy ('\n' :: t)).recover.1 =
      ⟨l.recover.1.tokens ++
          l.recover.2.locate ⟨.newline, ['\n']⟩ :: (l.recover.2.below t).recover.1.tokens,
        l.recover.1.errors ++ (l.recover.2.below t).recover.1.errors⟩ := by
  induction l using induction_on_step with
  | finish l last h =>
      have hbelow : (last.exhaust.below t).recover = (last.below t).recover :=
        recover_exhaust (last.below t)
      rw [recover_of_token (step_followedBy_of_finish h t), recover_of_finish h, hbelow]
      rfl
  | token l u next h ih =>
      rw [recover_of_token (step_followedBy_of_token h t), recover_of_token h, ih]
      rfl
  | fault l d before h ih =>
      obtain ⟨hskipped, hskip⟩ := skip_followedBy_of_fault h t
      rw [recover_of_fault (step_followedBy_of_fault h t), recover_of_fault h, hskipped, hskip, ih]
      rfl

end Lexer

namespace Text

-- Recovery reads line by line: what is below a newline is read as on its own, further down.
theorem recover_append_newline (a b : Text) (file? : Option String) :
    (a ++ '\n' :: b).recover file? =
      ⟨(a.recover file?).tokens ++
          ⟨⟨.newline, ['\n']⟩, a.count '\n', a.column⟩ ::
            (b.recover file?).tokens.map (Token.lower (a.count '\n' + 1)),
        (a.recover file?).errors ++
          (b.recover file?).errors.map
            (Diagnostic.lower (a.byteSize + 1) (a.count '\n' + 1))⟩ := by
  let l := Lexer.ofText a file?
  have hreads := l.reads_recover
  have hcursor : l.recover.2.cursor = ⟨a.byteSize, a.count '\n', a.column⟩ :=
    hreads.cursor.trans (Cursor.after_start a)
  have hbelow : (l.recover.2.below b).recover.1 =
      (b.recover file?).shift ⟨a.byteSize + 1, a.count '\n' + 1, 0⟩ := by
    have hrest : (l.recover.2.below b).rest = b := by
      simp only [Lexer.below, Lexer.followedBy, Lexer.pass, l.rest_recover]
      rfl
    have hplace : (l.recover.2.below b).cursor = ⟨a.byteSize + 1, a.count '\n' + 1, 0⟩ := by
      simp only [Lexer.below, Lexer.followedBy, Lexer.pass, hcursor]
      rfl
    have h := (l.recover.2.below b).recover_eq_shift_ofText file? hreads.file
    rwa [hrest, hplace] at h
  calc (a ++ '\n' :: b).recover file?
      = (l.followedBy ('\n' :: b)).recover.1 := rfl
    _ = _ := by
      rw [l.recover_followedBy b, hbelow, Lexer.Recovery.shift, Lexer.locate, hcursor,
        Token.shift_eq_lower, Diagnostic.shift_eq_lower]
      rfl

end Text

end JustLang
