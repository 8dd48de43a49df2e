/-!
# Settings

What a run of the tools can be told: whether a sigil joins the name behind it,
whether the parser remembers the outcomes of plain rules, and whether drawings
show spans. All of it is on unless told otherwise.
-/

namespace KiwiFront

/-- The switches of the tools. -/
structure Settings where
  joinNames : Bool
  packrat : Bool
  showSpans : Bool
deriving DecidableEq

/-- The settings of a run that is told nothing. -/
def Settings.default : Settings := ⟨true, true, true⟩

end KiwiFront
