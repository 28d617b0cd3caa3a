import JustLang.Lexer

namespace JustLang

-- One lexer, and copies of it that have been put aside.
structure Session where
  current : Lexer
  -- The copy put aside last comes first.
  saved : List Lexer

namespace Session

inductive Request where
  | next
  | pull
  | take (n : Nat)
  | drain
  | recover
  | peek
  | remainder
  | position
  | save
  | restore
  deriving DecidableEq

inductive Response where
  | next (result : Except Diagnostic Token)
  | pull (item : Option (Except Diagnostic Token))
  | take (items : List (Except Diagnostic Token))
  | drain (result : Except Diagnostic (List Token))
  | recover (result : Lexer.Recovery)
  | peek (first second : Option Char)
  | remainder (rest : Text)
  | position (place : Position)
  -- The number of copies now put aside.
  | save (depth : Nat)
  -- Whether there was a copy to take up.
  | restore (found : Bool)

def ofText (source : Text) (file? : Option String) : Session := ⟨Lexer.ofText source file?, []⟩

def answer (session : Session) : Request → Response × Session
  | .next =>
      let (result, l) := session.current.next
      (.next result, { session with current := l })
  | .pull =>
      let (item, l) := session.current.pull
      (.pull item, { session with current := l })
  | .take n =>
      let (items, l) := session.current.take n
      (.take items, { session with current := l })
  | .drain =>
      let (result, l) := session.current.drain
      (.drain result, { session with current := l })
  | .recover =>
      let (result, l) := session.current.recover
      (.recover result, { session with current := l })
  | .peek => (.peek session.current.peek.1 session.current.peek.2, session)
  | .remainder => (.remainder session.current.rest, session)
  | .position => (.position session.current.position, session)
  | .save =>
      let saved := session.current :: session.saved
      (.save saved.length, { session with saved := saved })
  | .restore =>
      match session.saved with
      | [] => (.restore false, session)
      | l :: saved => (.restore true, ⟨l, saved⟩)

-- Each response with the session after it.
def run (session : Session) : List Request → List (Response × Session)
  | [] => []
  | request :: requests =>
      let (response, later) := session.answer request
      (response, later) :: later.run requests

end Session

end JustLang
