import Lectern.Text.Basic

/-!
# Findings

What the deck checks report: a finding, how serious it is, and where in the deck it applies.
-/

namespace Lectern.Check

/-- How serious a finding is. -/
inductive Severity where
  | warning
  | error
  deriving DecidableEq

/-- The word for a severity. -/
def Severity.name : Severity → Text
  | .warning => "warning"
  | .error => "error"

/-- The greater of two severities: an error outweighs a warning. -/
def Severity.max : Severity → Severity → Severity
  | .warning, other => other
  | .error, _ => .error

/-- Where a finding applies. Scenes and the elements of a scene count from one. -/
inductive Location where
  | document
  | header
  | scene (index : Nat) (title : Text)
  | element (sceneTitle : Text) (position : Nat) (typeName : Text)
  deriving DecidableEq

/-- The written form of a location. -/
def Location.describe : Location → Text
  | .document => "document"
  | .header => "header"
  | .scene index title => "scene " ++ Text.ofNat index ++ " '" ++ title ++ "'"
  | .element sceneTitle position typeName =>
    "scene '" ++ sceneTitle ++ "', " ++ typeName ++ " #" ++ Text.ofNat position

/-- What a check finds. -/
inductive Finding where
  | headerMissing
  | headerKeyMissing (key : Text)
  | headerKeyUnknown (key : Text)
  | noScenes
  | sceneUntitled
  | sceneEmpty
  | elementTypeUnknown (name : Text)
  | paramMissing (kind key : Text)
  | slideTitleEmpty
  | slideKeyUnknown (key : Text)
  | slideEmpty
  | languageInvalid (code : Text)
  | languageMissing
  | other (message : Text)
  deriving DecidableEq

/-- The wording of a finding. -/
def Finding.message : Finding → Text
  | .headerMissing => "Header is missing. Decks should start with a '---' block"
  | .headerKeyMissing key => "Required attribute \"" ++ key ++ "\" is missing in header"
  | .headerKeyUnknown key => "Unknown header attribute: \"" ++ key ++ "\""
  | .noScenes => "Deck has no scenes"
  | .sceneUntitled => "Scene requires a title after the colon"
  | .sceneEmpty => "Scene has no elements"
  | .elementTypeUnknown name => "Unknown element type: \"" ++ name ++ "\""
  | .paramMissing kind key => kind ++ " element has no \"" ++ key ++ "\" attribute"
  | .slideTitleEmpty => "Slide has empty title attribute"
  | .slideKeyUnknown key => "Unknown slide attribute: \"" ++ key ++ "\""
  | .slideEmpty => "Slide has no content"
  | .languageInvalid code => "Invalid language code: \"" ++ code ++ "\""
  | .languageMissing =>
    "Missing \"lang\" attribute. When any slide has a \"lang\" attribute, "
      ++ "all slides must include it"
  | .other message => message

/-- A finding at its place. -/
structure Diagnostic where
  severity : Severity
  location : Location
  finding : Finding
  deriving DecidableEq

namespace Diagnostic

/-- A finding that makes a deck fail. -/
def error (location : Location) (finding : Finding) : Diagnostic := ⟨.error, location, finding⟩

/-- A finding that makes a deck fail only under strict checks. -/
def warning (location : Location) (finding : Finding) : Diagnostic := ⟨.warning, location, finding⟩

/-- The written form of a diagnostic. -/
def describe (diagnostic : Diagnostic) : Text :=
  diagnostic.severity.name ++ " [" ++ diagnostic.location.describe ++ "]: "
    ++ diagnostic.finding.message

end Diagnostic
end Lectern.Check
