import Gatehouse.Http.Token

/-!
# Request methods

A method is a token; case matters.
-/

namespace Gatehouse.Http

/-- The method of a request. -/
structure Method where
  name : String
  isToken_name : isToken name = true
deriving DecidableEq

namespace Method

/-- The method with this name, if the name is a token. -/
def ofString? (s : String) : Option Method :=
  if h : isToken s = true then some ⟨s, h⟩ else none

def get : Method := ⟨"GET", by decide⟩
def head : Method := ⟨"HEAD", by decide⟩
def post : Method := ⟨"POST", by decide⟩
def put : Method := ⟨"PUT", by decide⟩
def delete : Method := ⟨"DELETE", by decide⟩
def options : Method := ⟨"OPTIONS", by decide⟩
def connect : Method := ⟨"CONNECT", by decide⟩

instance : Inhabited Method := ⟨get⟩

/-- A word stands for at most one method: the one that is written so. -/
theorem ofString?_eq_some_iff {s : String} {m : Method} : ofString? s = some m ↔ m.name = s := by
  obtain ⟨n, hn⟩ := m
  simp only [ofString?]
  split
  · simp [eq_comm]
  · next h =>
    simp only [reduceCtorEq, false_iff]
    rintro rfl
    exact h hn

end Method

end Gatehouse.Http
