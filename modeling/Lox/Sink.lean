/-
This file gives the places that output goes to.
-/

namespace Lox

/-- A sink takes bytes up to its limit, and then refuses the next write. A sink that recovers
refuses only one write. -/
structure Sink where
  contents : ByteArray
  limit : Option Nat
  recovers : Bool

namespace Sink

/-- A sink that takes everything. -/
def unlimited : Sink := ⟨.empty, none, false⟩

/-- A sink that takes a number of bytes. -/
def limited (limit : Nat) : Sink := ⟨.empty, some limit, false⟩

/-- A sink that fails once, after a number of bytes. -/
def recovering (limit : Nat) : Sink := ⟨.empty, some limit, true⟩

/-- The bytes that fit are stored, and the answer tells whether they are all of them. -/
def write (text : String) (sink : Sink) : Bool × Sink :=
  let bytes := text.toUTF8
  match sink.limit with
  | none => (true, { sink with contents := sink.contents ++ bytes })
  | some limit =>
      let room := limit - sink.contents.size
      if bytes.size ≤ room then (true, { sink with contents := sink.contents ++ bytes })
      else
        (false,
          { sink with
            contents := sink.contents ++ bytes.extract 0 room
            limit := if sink.recovers then none else some limit })

end Sink

end Lox
