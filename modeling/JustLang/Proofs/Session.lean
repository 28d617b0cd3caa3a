import JustLang.Session
import JustLang.Proofs.Lexer.Place

namespace JustLang.Session

variable {source : Text} {file? : Option String} {session : Session} {requests : List Request}

-- Apart from a copy that is taken up again, a request moves the lexer forward.
theorem exists_reads_answer (session : Session) {request : Request} (h : request ≠ .restore) :
    ∃ s, session.current.Reads s (session.answer request).2.current := by
  cases request with
  | next => exact session.current.exists_reads_next
  | pull => exact session.current.exists_reads_pull
  | take n => exact session.current.exists_reads_take n
  | drain => exact session.current.exists_reads_drain
  | recover => exact session.current.exists_reads_recover
  | peek => exact ⟨[], .refl _⟩
  | remainder => exact ⟨[], .refl _⟩
  | position => exact ⟨[], .refl _⟩
  | save => exact ⟨[], .refl _⟩
  | restore => exact absurd rfl h

-- The lexers of the session stand in the source.
def Within (source : Text) (file? : Option String) (session : Session) : Prop :=
  ∀ l ∈ session.current :: session.saved, ∃ read, (Lexer.ofText source file?).Reads read l

theorem within_ofText : Within source file? (ofText source file?) := by
  intro l hl
  obtain rfl := List.mem_singleton.mp hl
  exact ⟨[], .refl _⟩

theorem Within.answer (h : Within source file? session) (request : Request) :
    Within source file? (session.answer request).2 := by
  by_cases hr : request = .restore
  · subst hr
    cases hsaved : session.saved with
    | nil => simpa only [Session.answer, hsaved] using h
    | cons l saved =>
        intro l' hl'
        simp only [Session.answer, hsaved] at hl'
        exact h l' (List.mem_cons_of_mem _ (hsaved ▸ hl'))
  · obtain ⟨s, hs⟩ := session.exists_reads_answer hr
    obtain ⟨read, hread⟩ := h _ List.mem_cons_self
    have hsaved : ∀ l ∈ (session.answer request).2.saved, l ∈ session.current :: session.saved := by
      cases request <;> simp_all [Session.answer]
    intro l hl
    rcases List.mem_cons.mp hl with rfl | hl
    · exact ⟨_, hread.trans hs⟩
    · exact h l (hsaved l hl)

theorem Within.run (h : Within source file? session) (requests : List Request) :
    ∀ e ∈ session.run requests, Within source file? e.2 := by
  induction requests generalizing session with
  | nil => simp [Session.run]
  | cons request requests ih =>
      intro e he
      rcases List.mem_cons.mp he with rfl | he
      · exact h.answer request
      · exact ih (h.answer request) e he

-- The lexer of the session at the beginning and after each request.
def lexers (session : Session) (requests : List Request) : List Lexer :=
  session.current :: (session.run requests).map (·.2.current)

theorem exists_reads_of_mem_lexers {l : Lexer} (h : l ∈ (ofText source file?).lexers requests) :
    ∃ read, (Lexer.ofText source file?).Reads read l := by
  rcases List.mem_cons.mp h with rfl | h
  · exact ⟨[], .refl _⟩
  · obtain ⟨e, he, rfl⟩ := List.mem_map.mp h
    exact within_ofText.run requests e he _ List.mem_cons_self

theorem pairwise_offset_lexers (session : Session) (h : .restore ∉ requests) :
    ((session.lexers requests).map (·.cursor.offset)).Pairwise (· ≤ ·) := by
  induction requests generalizing session with
  | nil => simp [lexers, Session.run]
  | cons request requests ih =>
      obtain ⟨hne, hrest⟩ := not_or.mp (mt List.mem_cons.mpr h)
      obtain ⟨s, hs⟩ := session.exists_reads_answer (Ne.symm hne)
      have htail := ih (session.answer request).2 hrest
      refine List.pairwise_cons.mpr ⟨?_, htail⟩
      intro offset hoffset
      rcases List.mem_cons.mp hoffset with rfl | hoffset
      · exact hs.offset_le
      · exact hs.offset_le.trans ((List.pairwise_cons.mp htail).1 offset hoffset)

-- No request takes the cursor out of the source, or makes a lexer cut where it may not.
theorem cursor_of_session (source : Text) (file? : Option String) (requests : List Request) :
    (∀ l ∈ (ofText source file?).lexers requests,
      Lexer.Placed source l.cursor ∧
      ∀ place, l.Visits place →
        source.slice? place.cursor.offset source.byteSize = some place.rest ∧
        ∀ piece, Lexer.Cut place.rest piece → Lexer.Cuttable source place piece) ∧
    (.restore ∉ requests →
      (((ofText source file?).lexers requests).map (·.cursor.offset)).Pairwise (· ≤ ·)) := by
  refine ⟨fun l hl => ?_, pairwise_offset_lexers _⟩
  obtain ⟨read, hread⟩ := exists_reads_of_mem_lexers hl
  refine ⟨hread.placed, fun place hvisits => ?_⟩
  obtain ⟨s, hs⟩ := Lexer.exists_reads_of_visits hvisits
  have hplace := hread.trans hs
  exact ⟨hplace.slice?_rest, fun piece hpiece => hplace.cuttable hpiece.isPrefix⟩

end JustLang.Session
