import JustLang.Proofs.Lexer.Shift
import JustLang.Proofs.Session
import JustLang.Proofs.Session.Interleaving

namespace JustLang.Session

variable {source : Text} {file? : Option String} {session : Session}

theorem Within.after (h : Within source file? session) (requests : List Request) :
    Within source file? (session.after requests) := by
  induction requests generalizing session with
  | nil => exact h
  | cons request requests ih => exact ih (h.answer request)

theorem exists_reads_after (source : Text) (file? : Option String) (requests : List Request) :
    ∃ read, (Lexer.ofText source file?).Reads read
      ((ofText source file?).after requests).current :=
  within_ofText.after requests _ List.mem_cons_self

-- After any requests the tokens and errors still to come are those of the unread text as a source
-- of its own, lower down by the lines before it, further on by the bytes, and on its first line
-- further to the right. Any other source goes on in the same way from the same place before the
-- same text.
theorem recover_restarts (source : Text) (file? : Option String) (requests : List Request) :
    let l := ((ofText source file?).after requests).current
    source.slice? l.cursor.offset source.byteSize = some l.rest ∧
    l.recover.1.tokens = (l.rest.recover file?).tokens.map (Token.shift l.cursor) ∧
    l.recover.1.errors = (l.rest.recover file?).errors.map (Diagnostic.shift l.cursor) ∧
    ∀ (other : Text) (others : List Request),
      let l' := ((ofText other file?).after others).current
      l'.rest = l.rest → l'.cursor = l.cursor → l'.recover.1 = l.recover.1 := by
  intro l
  obtain ⟨read, hreads⟩ := exists_reads_after source file? requests
  have hshift : l.recover.1 = (l.rest.recover file?).shift l.cursor :=
    l.recover_eq_shift_ofText file? hreads.file
  refine ⟨hreads.slice?_rest, ?_, ?_, ?_⟩
  · rw [hshift, Lexer.Recovery.shift]
  · rw [hshift, Lexer.Recovery.shift]
  · intro other others l' hrest hcursor
    obtain ⟨read', hreads'⟩ := exists_reads_after other file? others
    calc l'.recover.1 = (l'.rest.recover file?).shift l'.cursor :=
          l'.recover_eq_shift_ofText file? hreads'.file
      _ = l.recover.1 := by rw [hrest, hcursor, hshift]

end JustLang.Session
