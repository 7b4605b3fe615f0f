import Fabric.Symbol.Store
/-!
Calls of an interner as data, and runs of them.
-/

namespace Fabric.Store

inductive Call where
  | intern (s : String)
  | find (s : String)
  | text (x : Symbol)
  | size
  deriving DecidableEq, Repr

inductive Answer where
  | symbol (x : Symbol)
  | found (x : Option Symbol)
  | text (s : String)
  | size (n : Nat)
  deriving DecidableEq, Repr

variable {σ : Type} {S : Store σ}

/-- The answer to a call, unless it is refused, and the interner after it. -/
def Interner.perform (t : S.Interner) : Call → Option Answer × S.Interner
  | .intern s =>
    match t.intern s with
    | some (x, t) => (some (.symbol x), t)
    | none => (none, t)
  | .find s => (some (.found (t.find? s)), t)
  | .text x => ((t.text? x).map .text, t)
  | .size => (some (.size t.size), t)

/-- The interner after a list of calls. -/
def Interner.run (t : S.Interner) : List Call → S.Interner
  | [] => t
  | c :: r => (t.perform c).2.run r

/-- The answer to a call that comes after others on a new interner. -/
def answer (S : Store σ) (earlier : List Call) (c : Call) : Option Answer :=
  (((Interner.new S).run earlier).perform c).1

/-- The strings that calls intern, in order and as often as they do. -/
def interned : List Call → List String
  | [] => []
  | .intern s :: r => s :: interned r
  | _ :: r => interned r

end Fabric.Store
