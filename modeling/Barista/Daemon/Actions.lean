import Mathlib.Tactic

/-!
# Lifecycle action graphs

A lifecycle command turns the requested phase into an ordered list of actions per module.  Each
action becomes one request to the daemon.  The two phases that publish artifacts are marked as
not retryable.
-/

namespace Barista.Daemon

inductive MavenPhase where
  | clean
  | compile
  | test
  | package
  | verify
  | install
  | deploy
  | site
  deriving DecidableEq

def compilePhasePrefix : List String := ["process-resources", "compile"]

def testPhasePrefix : List String :=
  ["process-resources", "compile", "process-test-resources", "test-compile", "test"]

def packagePhasePrefix : List String :=
  ["process-resources", "compile", "process-test-resources", "test-compile", "test",
    "prepare-package", "package"]

def verifyPhasePrefix : List String :=
  ["process-resources", "compile", "process-test-resources", "test-compile", "test",
    "prepare-package", "package", "integration-test", "verify"]

def installPhasePrefix : List String :=
  ["process-resources", "compile", "process-test-resources", "test-compile", "test",
    "prepare-package", "package", "integration-test", "verify", "install"]

def deployPhasePrefix : List String :=
  ["process-resources", "compile", "process-test-resources", "test-compile", "test",
    "prepare-package", "package", "integration-test", "verify", "install", "deploy"]

def cleanPhasePrefix : List String := ["clean"]

def sitePhasePrefix : List String := ["site"]

def phasePrefix : MavenPhase → List String
  | .clean => cleanPhasePrefix
  | .compile => compilePhasePrefix
  | .test => testPhasePrefix
  | .package => packagePhasePrefix
  | .verify => verifyPhasePrefix
  | .install => installPhasePrefix
  | .deploy => deployPhasePrefix
  | .site => sitePhasePrefix

def phaseIsRetryable (phaseName : String) : Bool :=
  !(phaseName == "install" || phaseName == "deploy")

structure PlannedAction where
  phase : String
  retryable : Bool
  deriving DecidableEq

def joinPath (directory name : String) : String :=
  if directory.isEmpty || directory.endsWith "/" then directory ++ name
  else directory ++ "/" ++ name

structure ActionGraph where
  moduleRoot : String
  pomPath : String
  actions : List PlannedAction
  deriving DecidableEq

def lifecycleGraph (phase : MavenPhase) (moduleRoot : String) (includeClean : Bool) :
    ActionGraph where
  moduleRoot := moduleRoot
  pomPath := joinPath moduleRoot "pom.xml"
  actions :=
    (if includeClean && !(phasePrefix phase).contains "clean" then [⟨"clean", true⟩] else []) ++
      (phasePrefix phase).map fun name => ⟨name, phaseIsRetryable name⟩

structure Credential where
  serverId : String
  username : String
  secret : Option String
  deriving DecidableEq

structure CredentialsEnvelope where
  entries : List Credential
  deriving DecidableEq

structure ActionRequest where
  mojoCoords : String
  projectRoot : String
  pomPath : String
  workingDirectory : String
  systemProperties : List (String × String)
  environment : List (String × String)
  stdoutStreamId : ℤ
  stderrStreamId : ℤ
  mavenCompat : String
  credentials : Option CredentialsEnvelope
  deriving DecidableEq

def buildActionRequest (graph : ActionGraph) (action : PlannedAction) (projectRoot : String) :
    ActionRequest where
  mojoCoords := action.phase
  projectRoot := projectRoot
  pomPath := graph.pomPath
  workingDirectory := graph.moduleRoot
  systemProperties := []
  environment := []
  mavenCompat := "4"
  stdoutStreamId := 1
  stderrStreamId := 2
  credentials := none

structure ReproducibilitySeed where
  env : List (String × String)
  systemProperties : List (String × String)
  deriving DecidableEq

def insertMissing (entries : List (String × String)) (entry : String × String) :
    List (String × String) :=
  if entries.any (·.1 == entry.1) then entries else entries ++ [entry]

def applyToRequest (request : ActionRequest) (seed : ReproducibilitySeed) : ActionRequest :=
  { request with
    environment := seed.env.foldl insertMissing request.environment
    systemProperties := seed.systemProperties.foldl insertMissing request.systemProperties
    mavenCompat := if request.mavenCompat.isEmpty then "4" else request.mavenCompat }

end Barista.Daemon
