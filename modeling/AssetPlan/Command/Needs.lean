import AssetPlan.Command.Report

/-! # What a command looks at

The files and directories that a request depends on, so that a program can look at them once and
run the request on what it has seen.
-/

namespace AssetPlan

namespace Selection

/-- The files that a selection reads. -/
def files (selection : Selection) : List String :=
  match selection.preset, selection.config with
  | some _, _ => []
  | none, some path => [path]
  | none, none => [defaultConfig]

/-- The directories that a selection's scopes name; `s` sees every directory. -/
def directories (s : Surroundings) (selection : Selection) : List String :=
  match (selection.effective s).result with
  | .error _ => []
  | .ok e =>
    e.scopeRoot.toList.flatMap fun root =>
      e.build.rules.flatMap fun rule => rule.scope.map (Path.join root)

end Selection

namespace Command

def selection? : Command → Option Selection
  | .display selection _ => some selection
  | .resolve selection _ _ => some selection
  | .explain selection _ _ => some selection
  | .place selection _ => some selection
  | .verify selection => some selection
  | .preset _ => none

/-- The files whose content a command uses itself. -/
def operands : Command → List String
  | .place _ file => [file]
  | _ => []

end Command

namespace Request

def command? : Request → Option Command
  | .run _ command => some command
  | _ => none

/-- The files that a request reads. -/
def files (r : Request) : List String :=
  r.command?.toList.flatMap fun command =>
    command.selection?.toList.flatMap Selection.files ++ command.operands

/-- The directories that a request asks for; `s` sees every directory. -/
def directories (s : Surroundings) (r : Request) : List String :=
  (r.command?.bind Command.selection?).toList.flatMap (Selection.directories s)

/-- The request wants to see an event: every one if it is verbose, else warnings only. -/
def logs (r : Request) (event : Event) : Bool :=
  match r with
  | .run true _ => true
  | _ => event.level == .warn

end Request

end AssetPlan
