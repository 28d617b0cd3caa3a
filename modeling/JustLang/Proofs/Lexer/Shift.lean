import JustLang.Proofs.Lexer.Step
import JustLang.Proofs.Position

namespace JustLang

-- A place in a text that itself begins at the base. Only the first line of the text goes on along
-- a line of what is before it.
def Cursor.shift (base cursor : Cursor) : Cursor where
  offset := base.offset + cursor.offset
  line := base.line + cursor.line
  column := if cursor.line = 0 then base.column + cursor.column else cursor.column

namespace Cursor

variable (base cursor : Cursor)

@[simp] theorem shift_start : base.shift start = base := rfl

theorem next_shift (c : Char) : (base.shift cursor).next c = base.shift (cursor.next c) := by
  by_cases hc : c = '\n'
  · simp only [next, shift, hc, ite_true, Nat.add_assoc, Nat.add_one_ne_zero, ite_false]
  · by_cases hline : cursor.line = 0
    · simp only [next, shift, hc, hline, ite_true, ite_false, Nat.add_assoc]
    · simp only [next, shift, hc, hline, ite_false, Nat.add_assoc]

theorem advance_shift (s : Text) :
    (base.shift cursor).advance s = base.shift (cursor.advance s) := by
  by_cases hline : cursor.line = 0
  · simp only [advance, shift, hline, ite_true, Nat.add_assoc]
  · simp only [advance, shift, hline, ite_false, Nat.add_assoc]

theorem after_shift (s : Text) : (base.shift cursor).after s = base.shift (cursor.after s) := by
  induction s generalizing cursor with
  | nil => rfl
  | cons c s ih => rw [after_cons, after_cons, next_shift, ih]

end Cursor

def Token.shift (base : Cursor) (t : Token) : Token :=
  { t with
    line := base.line + t.line
    column := if t.line = 0 then base.column + t.column else t.column }

def Diagnostic.shift (base : Cursor) (d : Diagnostic) : Diagnostic :=
  ⟨d.cause, ⟨base.shift d.position.toCursor, d.position.file⟩⟩

namespace Lexer

variable (base : Cursor) (l : Lexer)

def Recovery.shift (r : Recovery) : Recovery :=
  ⟨r.tokens.map (Token.shift base), r.errors.map (Diagnostic.shift base)⟩

def shift : Lexer := { l with cursor := base.shift l.cursor }

def Step.shift : Step → Step
  | .finish last => .finish (last.shift base)
  | .token u next => .token (u.shift base) (next.shift base)
  | .fault d before => .fault (d.shift base) (before.shift base)

theorem pass_shift (s : Text) : (l.shift base).pass s = (l.pass s).shift base := by
  have hcursor := Cursor.after_shift base l.cursor s
  simp only [pass, shift, hcursor]

theorem afterSpaces_shift : (l.shift base).afterSpaces = l.afterSpaces.shift base := by
  rw [afterSpaces_eq_pass, afterSpaces_eq_pass, ← pass_shift]
  rfl

theorem step_shift : (l.shift base).step = l.step.shift base := by
  have hspaces := l.afterSpaces_shift base
  have hrest : (l.shift base).afterSpaces.rest = l.afterSpaces.rest := by
    rw [hspaces]
    rfl
  rcases l.step_cases with ⟨hnil, hs⟩ | ⟨w, hr, hs⟩ | ⟨c, s, hcons, hr, hs⟩
  · rw [hs, step_of_rest_nil (hrest.trans hnil), hspaces]
    rfl
  · rw [hs, step_of_read? (hrest ▸ hr), hspaces, pass_shift]
    rfl
  · rw [hs, step_of_read?_eq_none (hrest.trans hcons) hr, hspaces]
    rfl

theorem skipped_shift (d : Diagnostic) :
    (l.shift base).skipped (d.shift base) = (l.skipped d).shift base := rfl

theorem skip_shift (d : Diagnostic) :
    (l.shift base).skip (d.shift base) = (l.skip d).shift base := by
  have hcursor := Cursor.advance_shift base l.cursor (d.cause.span l.rest)
  exact congrArg (fun cursor => { (l.skip d) with cursor := cursor }) hcursor

theorem recover_shift :
    (l.shift base).recover = (l.recover.1.shift base, l.recover.2.shift base) := by
  have hstep := l.step_shift base
  induction l using induction_on_step with
  | finish l last h =>
      rw [h] at hstep
      rw [recover_of_finish hstep, recover_of_finish h]
      rfl
  | token l u next h ih =>
      rw [h] at hstep
      rw [recover_of_token hstep, recover_of_token h, ih (next.step_shift base)]
      rfl
  | fault l d before h ih =>
      rw [h] at hstep
      rw [recover_of_fault hstep, recover_of_fault h, skip_shift, skipped_shift,
        ih ((before.skip d).step_shift base)]
      rfl

-- A lexer that stands anywhere is a new one for its unread text, seen from there.
theorem recover_eq_shift_ofText (file? : Option String) (hfile : l.file = file?.getD "shell") :
    l.recover.1 = (l.rest.recover file?).shift l.cursor := by
  have hl : l.exhaust = ((ofText l.rest file?).shift l.cursor).exhaust := by
    simp only [exhaust, shift, ofText, Cursor.shift_start, hfile]
  calc l.recover.1 = l.exhaust.recover.1 := by rw [recover_exhaust]
    _ = ((ofText l.rest file?).shift l.cursor).recover.1 := by rw [hl, recover_exhaust]
    _ = (l.rest.recover file?).shift l.cursor := by rw [recover_shift]; rfl

end Lexer

end JustLang
