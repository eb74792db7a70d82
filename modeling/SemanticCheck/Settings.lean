/-! Settings of the checker and of its log. -/
namespace SemanticCheck

/-- Callback functions may end up in hardware vector tables, which pass only so many arguments.
Widening lets a slot that passes a byte hold a function that takes a word; it is off by default,
because the call through the slot does not show it. -/
structure AnalysisSettings where
  maxCallbackParams : Nat := 4
  callbackWidening : Bool := false
  deriving DecidableEq, Inhabited, Repr

structure LogSettings where
  filter : String := "info"
  directory : Option String := none
  deriving DecidableEq, Inhabited, Repr

structure Settings where
  analysis : AnalysisSettings := {}
  log : LogSettings := {}
  deriving DecidableEq, Inhabited, Repr

end SemanticCheck
