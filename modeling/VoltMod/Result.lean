import Mathlib.Data.List.Basic

/-! Core/Result.hpp: a failure is a code to branch on and a detail for the log.
The translation key and the localized text belong to player-facing replies. -/

namespace VoltMod

inductive ErrorCode where
  | notFound | notReady | invalid | denied | immune | unsupported | engine | failed
  deriving DecidableEq, Repr

structure Error where
  code : ErrorCode
  detail : String
  key : String
  text : String
  deriving DecidableEq, Repr

namespace Error

def notFound (detail : String) : Error := ⟨.notFound, detail, "", ""⟩
def notReady (detail : String) : Error := ⟨.notReady, detail, "", ""⟩
def invalid (detail : String) : Error := ⟨.invalid, detail, "", ""⟩
/-- The failures a player is told about carry the key of what they are told. -/
def denied (key : String) : Error := ⟨.denied, "permission denied", key, ""⟩
def immune (key : String) : Error := ⟨.immune, "target is immune", key, ""⟩
def unsupported (detail : String) : Error := ⟨.unsupported, detail, "", ""⟩
def engine (detail : String) : Error := ⟨.engine, detail, "", ""⟩
def failed (detail : String) : Error := ⟨.failed, detail, "", ""⟩

end Error

abbrev Result (Value : Type) := Except Error Value
abbrev Status := Result Unit

theorem bind_ok_iff {Failure Value Next : Type} (first : Except Failure Value)
    (next : Value → Except Failure Next) (result : Next) :
    (first >>= next) = .ok result ↔ ∃ value, first = .ok value ∧ next value = .ok result := by
  cases first with
  | error failure => simp [Bind.bind, Except.bind]
  | ok value => simp [Bind.bind, Except.bind]

end VoltMod
