import JustLang.Proofs.Lexer.Step
import JustLang.Session

namespace JustLang

namespace Lexer

variable {l l' l'' next : Lexer} {tokens more : List Token} {u : Token}

-- What recovery would find from the first lexer are the tokens and what it finds from the second.
structure HandsOut (l : Lexer) (tokens : List Token) (l' : Lexer) : Prop where
  tokens_eq : l.recover.1.tokens = tokens ++ l'.recover.1.tokens
  errors_eq : l.recover.1.errors = l'.recover.1.errors

theorem HandsOut.refl (l : Lexer) : l.HandsOut [] l := ⟨rfl, rfl⟩

theorem HandsOut.trans (h : l.HandsOut tokens l') (h' : l'.HandsOut more l'') :
    l.HandsOut (tokens ++ more) l'' where
  tokens_eq := by rw [h.tokens_eq, h'.tokens_eq, List.append_assoc]
  errors_eq := h.errors_eq.trans h'.errors_eq

theorem HandsOut.exhaust (h : l.HandsOut tokens l') : l.HandsOut tokens l'.exhaust where
  tokens_eq := by rw [h.tokens_eq, recover_exhaust]
  errors_eq := by rw [h.errors_eq, recover_exhaust]

-- At a fault or at the end of the input the lexer only moves over spaces.
theorem handsOut_afterSpaces (l : Lexer) : l.HandsOut [] l.afterSpaces where
  tokens_eq := by rw [recover_afterSpaces, List.nil_append]
  errors_eq := by rw [recover_afterSpaces]

theorem handsOut_of_token (h : l.step = .token u next) : l.HandsOut [u] next where
  tokens_eq := by rw [recover_of_token h, List.singleton_append]
  errors_eq := by rw [recover_of_token h]

theorem exhausted_next (l : Lexer) : l.next.2.exhausted = l.exhausted := by
  rcases l.next_cases with ⟨u, next, hstep, hnext⟩ | ⟨result, -, hnext⟩
  · rw [hnext]
    exact exhausted_of_token hstep
  · rw [hnext]
    exact l.exhausted_afterSpaces

-- An item that is not a token is the last.
theorem exhausted_pull (h : ∀ u, l.pull.1 ≠ some (.ok u)) : l.pull.2.exhausted = true := by
  rcases l.pull_cases with ⟨hl, hpull⟩ | ⟨u, next, -, hpull⟩ | ⟨item, -, hpull⟩
  · rwa [hpull]
  · rw [hpull] at h
    exact absurd rfl (h u)
  · rw [hpull]
    rfl

end Lexer

namespace Session

variable {session : Session} {request : Request} {requests : List Request}

-- The session after all of the requests.
def after (session : Session) (requests : List Request) : Session :=
  requests.foldl (fun session request => (session.answer request).2) session

theorem after_cons (session : Session) (request : Request) (requests : List Request) :
    session.after (request :: requests) = (session.answer request).2.after requests := rfl

theorem after_append (session : Session) (first second : List Request) :
    session.after (first ++ second) = (session.after first).after second := List.foldl_append

-- The requests for one token at a time.
def Request.Single (request : Request) : Prop := request = .next ∨ request = .pull

-- The token that a response hands out, if it hands out one. The end of the input is none.
def Response.token? : Response → Option Token
  | .next (.ok t) => if t.kind = .endOfInput then none else some t
  | .pull (some (.ok t)) => some t
  | _ => none

def handedOut (entries : List (Response × Session)) : List Token :=
  entries.flatMap (·.1.token?.toList)

-- The sequence of tokens ends where there are no more of them, or with a fault.
inductive Response.Ends : Response → Prop where
  | finish : Ends (.pull none)
  | fault {d : Diagnostic} : Ends (.pull (some (.error d)))

theorem Response.token?_next {result : Except Diagnostic Token}
    (h : ∀ u, result = .ok u → u.kind = .endOfInput) : (next result).token? = none := by
  cases result with
  | error d => rfl
  | ok u => exact if_pos (h u rfl)

theorem Response.token?_pull {item : Option (Except Diagnostic Token)}
    (h : ∀ u, item ≠ some (.ok u)) : (pull item).token? = none := by
  cases item with
  | none => rfl
  | some result =>
      cases result with
      | error d => rfl
      | ok u => exact absurd rfl (h u)

theorem handsOut_next (session : Session) :
    session.current.HandsOut (session.answer .next).1.token?.toList
      (session.answer .next).2.current := by
  simp only [answer]
  rcases session.current.next_cases with ⟨u, next, hstep, hnext⟩ | ⟨result, hresult, hnext⟩
  · have hkind := (Lexer.emits_of_token hstep).emitted.ne_endOfInput
    rw [hnext, Response.token?, if_neg hkind]
    exact Lexer.handsOut_of_token hstep
  · rw [hnext, Response.token?_next hresult]
    exact session.current.handsOut_afterSpaces

theorem handsOut_pull (session : Session) :
    session.current.HandsOut (session.answer .pull).1.token?.toList
      (session.answer .pull).2.current := by
  simp only [answer]
  rcases session.current.pull_cases with
    ⟨-, hpull⟩ | ⟨u, next, hstep, hpull⟩ | ⟨item, hitem, hpull⟩
  · rw [hpull]
    exact .refl session.current
  · rw [hpull]
    exact Lexer.handsOut_of_token hstep
  · rw [hpull, Response.token?_pull hitem]
    exact session.current.handsOut_afterSpaces.exhaust

theorem handsOut_after (h : ∀ request ∈ requests, request.Single) (session : Session) :
    session.current.HandsOut (handedOut (session.run requests))
      (session.after requests).current := by
  induction requests generalizing session with
  | nil => exact .refl session.current
  | cons request requests ih =>
      obtain ⟨hrequest, hrest⟩ := List.forall_mem_cons.mp h
      have hstep : session.current.HandsOut (session.answer request).1.token?.toList
          (session.answer request).2.current := by
        rcases hrequest with rfl | rfl
        · exact session.handsOut_next
        · exact session.handsOut_pull
      exact hstep.trans (ih hrest (session.answer request).2)

-- No request for a token takes the sequence up again.
theorem exhausted_after (h : ∀ request ∈ requests, request.Single)
    (hl : session.current.exhausted = true) :
    (session.after requests).current.exhausted = true := by
  induction requests generalizing session with
  | nil => exact hl
  | cons request requests ih =>
      obtain ⟨hrequest, hrest⟩ := List.forall_mem_cons.mp h
      rw [after_cons]
      apply ih hrest
      rcases hrequest with rfl | rfl
      · exact session.current.exhausted_next.trans hl
      · simpa only [answer, Lexer.pull_of_exhausted hl] using hl

theorem exhausted_of_ends (h : (session.answer .pull).1.Ends) :
    (session.answer .pull).2.current.exhausted = true := by
  apply Lexer.exhausted_pull
  intro u hu
  simp only [answer, hu] at h
  cases h

theorem answer_pull_of_exhausted (hl : session.current.exhausted = true) :
    session.answer .pull = (.pull none, session) := by
  simp only [answer, Lexer.pull_of_exhausted hl]

-- Tokens may be asked for in either way at any time. None is lost or handed out twice, and once the
-- sequence has ended a request for its next item finds nothing and leaves everything as it is.
theorem tokens_of_interleaving (source : Text) (file? : Option String) (requests : List Request)
    (h : ∀ request ∈ requests, request.Single) :
    (∃ r last,
      ((ofText source file?).after requests).answer .recover = (.recover r, last) ∧
      handedOut ((ofText source file?).run requests) ++ r.tokens =
        (source.recover file?).tokens ∧
      r.errors = (source.recover file?).errors) ∧
    ∀ first second third, requests = first ++ .pull :: (second ++ .pull :: third) →
      (((ofText source file?).after first).answer .pull).1.Ends →
      ((ofText source file?).after (first ++ .pull :: second)).answer .pull =
        (.pull none, (ofText source file?).after (first ++ .pull :: second)) := by
  constructor
  · have hhands := handsOut_after h (ofText source file?)
    exact ⟨_, _, rfl, hhands.tokens_eq.symm, hhands.errors_eq.symm⟩
  · intro first second third hsplit hends
    have hsecond : ∀ request ∈ second, request.Single := by
      intro request hrequest
      apply h
      simp [hsplit, hrequest]
    apply answer_pull_of_exhausted
    rw [after_append, after_cons]
    exact exhausted_after hsecond (exhausted_of_ends hends)

-- The fault is reported twice before the sequence is asked for it, and once by recovery.
theorem tokens_of_interleaving_at_fault :
    (∀ request ∈ [Request.pull, .next, .next, .pull, .next, .pull], request.Single) ∧
    (∃ r last,
      ((ofText "a ~ b".toList none).after [.pull, .next, .next, .pull, .next, .pull]).answer
        .recover = (.recover r, last) ∧
      [⟨⟨.identifier, ['a']⟩, 0, 0⟩] ++ r.tokens = (Text.recover "a ~ b".toList none).tokens ∧
      r.errors = [⟨.unrecognisedCharacter '~', ⟨⟨2, 0, 2⟩, "shell"⟩⟩]) ∧
    (((ofText "a ~ b".toList none).after [.pull, .next, .next]).answer .pull).1.Ends ∧
    ((ofText "a ~ b".toList none).after [.pull, .next, .next, .pull, .next]).answer .pull =
      (.pull none, (ofText "a ~ b".toList none).after [.pull, .next, .next, .pull, .next]) := by
  have hsingle : ∀ request ∈ [Request.pull, .next, .next, .pull, .next, .pull],
      request.Single := by
    simp [Request.Single]
  have hends :
      (((ofText "a ~ b".toList none).after [.pull, .next, .next]).answer .pull).1.Ends := by
    have hresponse : (((ofText "a ~ b".toList none).after [.pull, .next, .next]).answer .pull).1 =
        .pull (some (.error ⟨.unrecognisedCharacter '~', ⟨⟨2, 0, 2⟩, "shell"⟩⟩)) := rfl
    rw [hresponse]
    exact .fault
  have h := tokens_of_interleaving "a ~ b".toList none _ hsingle
  obtain ⟨⟨r, last, hanswer, htokens, herrors⟩, hended⟩ := h
  have hfault : (Text.recover "a ~ b".toList none).errors =
      [⟨.unrecognisedCharacter '~', ⟨⟨2, 0, 2⟩, "shell"⟩⟩] := by decide +kernel
  have hhanded : handedOut ((ofText "a ~ b".toList none).run
      [.pull, .next, .next, .pull, .next, .pull]) = [⟨⟨.identifier, ['a']⟩, 0, 0⟩] := by
    decide +kernel
  rw [hhanded] at htokens
  rw [hfault] at herrors
  exact ⟨hsingle, ⟨r, last, hanswer, htokens, herrors⟩, hends,
    hended [.pull, .next, .next] [.next] [] rfl hends⟩

end Session

end JustLang
