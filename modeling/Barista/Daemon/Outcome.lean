import Barista.Ipc.Transport
import Barista.Daemon.Actions

/-!
# The outcome of an action

The daemon reports the outcome in one envelope, with the output of a failed action in its message.
The envelope arrives exactly if it fits into a frame.
-/

namespace Barista.Daemon

open Ipc.Wire

namespace JavaText

def isWhitespace (char : Char) : Bool :=
  let code := char.toNat
  (9 ≤ code && code ≤ 13) || (0x1C ≤ code && code ≤ 0x20) || code == 0x1680 ||
    (0x2000 ≤ code && code ≤ 0x2006) || (0x2008 ≤ code && code ≤ 0x200A) || code == 0x2028 ||
    code == 0x2029 || code == 0x205F || code == 0x3000

def isBlank (text : String) : Bool := text.toList.all isWhitespace

def stripTrailing (text : String) : String :=
  .ofList (text.toList.reverse.dropWhile isWhitespace).reverse

def contains (text pattern : String) : Bool := text.toList.tails.any pattern.toList.isPrefixOf

end JavaText

open JavaText

structure Throwable where
  simpleName : String
  name : String
  message : Option String
  stackTrace : String
deriving DecidableEq

inductive Invocation where
  | exited (exit : Int32)
  | failed (failure : Throwable)
deriving DecidableEq

inductive Execution where
  | executed (invocation : Invocation) (stdout stderr : Bytes) (durationMicros : Int64)
  | settingsFailed (simpleName : String) (message : Option String)
  | threw (simpleName : String) (message : Option String)
deriving DecidableEq

def coreErrorCode : String := "BAR-DAEMON-CORE-FAILURE"

def Invocation.exitCode : Invocation → Int32
  | exited exit => exit
  | failed _ => 1

def Invocation.failure : Invocation → Option Throwable
  | exited _ => none
  | failed failure => some failure

def Invocation.message : Invocation → String
  | exited exit => "embedded Maven exited with status " ++ toString exit.toInt
  | failed failure => failure.simpleName ++ ": " ++ failure.message.getD "(no message)"

def outputText (output : String) : String :=
  if isBlank output then "" else "\n" ++ stripTrailing output

def failureText (invocation : Invocation) (stdoutText stderrText : String) : String :=
  invocation.message ++ outputText stderrText ++ outputText stdoutText

variable (text : Bytes → String)

def doExecute (actionId : String) (invocation : Invocation)
    (stdout stderr : Bytes) (durationMicros : Int64) : Ipc.Wire.ActionResult :=
  if invocation.exitCode = 0 ∧ invocation.failure = none then
    ⟨actionId, Status.success.code, invocation.exitCode, durationMicros, "", "", none⟩
  else
    let message := failureText invocation (text stdout) (text stderr)
    ⟨actionId, Status.failure.code, invocation.exitCode, durationMicros, message,
      (invocation.failure.map Throwable.stackTrace).getD "",
      some ⟨coreErrorCode, message,
        (invocation.failure.map fun failure => ("exception", failure.name)).toList, actionId⟩⟩

def codeDeployAuthInvalid : String := "BAR-DEPLOY-AUTH-INVALID"

def codeDeployAuthMissing : String := "BAR-DEPLOY-AUTH-MISSING"

def looksLikeAuthFailure (message : String) : Bool :=
  contains message " 401 " || contains message ": 401" || contains message "401 Unauthorized" ||
    contains message " 403 " || contains message ": 403" || contains message "403 Forbidden" ||
    contains message "authentication failed" || contains message "Authentication failed"

def isDeploy (coords : String) : Bool :=
  Text.startsWith coords "deploy" || contains coords ":deploy" ||
    contains coords "maven-deploy-plugin"

def deployHint (hadCredentials : Bool) : String :=
  if hadCredentials then
    codeDeployAuthInvalid ++ ": " ++
      "deploy failed: the remote repository rejected the credentials. " ++
      "Check the <server> entry in your settings.xml for the matching id." ++ "\n"
  else
    codeDeployAuthMissing ++ ": " ++
      "deploy failed: no credentials were sent for the target repository. " ++
      "Configure <server> credentials in your settings.xml for the " ++
      "matching <distributionManagement><repository><id>." ++ "\n"

def deployCode (hadCredentials : Bool) : String :=
  if hadCredentials then codeDeployAuthInvalid else codeDeployAuthMissing

def maybeRewriteAuthError (coords : String) (result : Ipc.Wire.ActionResult)
    (hadCredentials : Bool) : Ipc.Wire.ActionResult :=
  if result.status = Status.failure.code ∧ isDeploy coords ∧
      looksLikeAuthFailure result.failureMessage then
    { result with
      error := some { result.error.getD ⟨"", "", [], ""⟩ with code := deployCode hadCredentials }
      failureMessage := deployHint hadCredentials ++ result.failureMessage }
  else result

def ActionRequest.hadCredentials (request : ActionRequest) : Bool :=
  (request.credentials.map fun credentials => !credentials.entries.isEmpty).getD false

def failedResult (actionId code message : String) : Ipc.Wire.ActionResult :=
  ⟨actionId, Status.failure.code, 1, 0, message, "", some ⟨code, message, [], actionId⟩⟩

variable (simpleName : String)

def settingsText (message : Option String) : String :=
  "failed to materialise ephemeral settings.xml for credentials: " ++ simpleName ++ ": " ++
    message.getD "null"

def dispatcherText (message : Option String) : String :=
  "dispatcher threw " ++ simpleName ++ ": " ++ message.getD "(no message)"

def dispatch (actionId : String) (request : ActionRequest) : Execution → Ipc.Wire.ActionResult
  | .executed invocation stdout stderr durationMicros =>
    maybeRewriteAuthError request.mojoCoords
      (doExecute text actionId invocation stdout stderr durationMicros) request.hadCredentials
  | .settingsFailed simpleName message =>
    failedResult actionId codeDeployAuthInvalid (settingsText simpleName message)
  | .threw simpleName message =>
    failedResult actionId "BAR-DAEMON-DISPATCH-INTERNAL" (dispatcherText simpleName message)

def protocolVersion : UInt32 := 1

variable (requestId : UInt64)

def reply (actionId : String) (request : ActionRequest) (execution : Execution) : Envelope :=
  ⟨protocolVersion, requestId, some (dispatch text actionId request execution)⟩

def outputSize (output : String) : ℕ :=
  if isBlank output then 0 else 1 + (stripTrailing output).utf8ByteSize

def Invocation.messageSize : Invocation → ℕ
  | exited exit => 34 + (toString exit.toInt).utf8ByteSize
  | failed failure =>
    failure.simpleName.utf8ByteSize + 2 + (failure.message.getD "(no message)").utf8ByteSize

def failureSize (invocation : Invocation) (stdoutText stderrText : String) : ℕ :=
  invocation.messageSize + outputSize stderrText + outputSize stdoutText

def Refused (coords : String) (invocation : Invocation) (stdoutText stderrText : String) : Prop :=
  isDeploy coords ∧ looksLikeAuthFailure (failureText invocation stdoutText stderrText)

instance (coords : String) (invocation : Invocation) (stdoutText stderrText : String) :
    Decidable (Refused coords invocation stdoutText stderrText) :=
  inferInstanceAs (Decidable (_ ∧ _))

def failedSize (actionId : ℕ) (exit : Int32) (durationMicros : Int64)
    (hint code message stack : ℕ) (details : List (String × String)) : ℕ :=
  envelopeSize protocolVersion requestId
    (resultSize actionId Status.failure.code exit durationMicros (hint + message) stack
      (some (errorSize code message details actionId)))

def replySize (actionId : String) (request : ActionRequest) : Execution → ℕ
  | .executed invocation stdout stderr durationMicros =>
    if invocation.exitCode = 0 ∧ invocation.failure = none then
      envelopeSize protocolVersion requestId
        (resultSize actionId.utf8ByteSize Status.success.code 0 durationMicros 0 0 none)
    else
      failedSize requestId actionId.utf8ByteSize invocation.exitCode durationMicros
        (if Refused request.mojoCoords invocation (text stdout) (text stderr) then
          (deployHint request.hadCredentials).utf8ByteSize else 0)
        23 (failureSize invocation (text stdout) (text stderr))
        ((invocation.failure.map Throwable.stackTrace).getD "").utf8ByteSize
        (invocation.failure.map fun failure => ("exception", failure.name)).toList
  | .settingsFailed simpleName message =>
    failedSize requestId actionId.utf8ByteSize 1 0 0 23
      (62 + simpleName.utf8ByteSize + 2 + (message.getD "null").utf8ByteSize) 0 []
  | .threw simpleName message =>
    failedSize requestId actionId.utf8ByteSize 1 0 0 28
      (17 + simpleName.utf8ByteSize + 2 + (message.getD "(no message)").utf8ByteSize) 0 []

theorem utf8ByteSize_outputText (output : String) :
    (outputText output).utf8ByteSize = outputSize output := by
  rw [outputText, outputSize]
  split_ifs
  · rfl
  · rw [String.utf8ByteSize_append]
    rfl

theorem utf8ByteSize_between {lead mid : String} {leadSize middleSize : ℕ}
    (leads : lead.utf8ByteSize = leadSize) (joins : mid.utf8ByteSize = middleSize)
    (first second : String) : (lead ++ first ++ mid ++ second).utf8ByteSize =
      leadSize + first.utf8ByteSize + middleSize + second.utf8ByteSize := by
  rw [String.utf8ByteSize_append, String.utf8ByteSize_append, String.utf8ByteSize_append, leads,
    joins]

theorem utf8ByteSize_colon : ": ".utf8ByteSize = 2 := by decide

variable (call : Invocation)

theorem Invocation.utf8ByteSize_message : call.message.utf8ByteSize = call.messageSize := by
  cases call with
  | exited exit =>
    have status : "embedded Maven exited with status ".utf8ByteSize = 34 := by decide
    exact String.utf8ByteSize_append.trans (congrArg (· + _) status)
  | failed failure =>
    exact String.utf8ByteSize_append.trans (congrArg (· + _)
      (String.utf8ByteSize_append.trans (congrArg (_ + ·) utf8ByteSize_colon)))

theorem utf8ByteSize_failureText (stdoutText stderrText : String) :
    (failureText call stdoutText stderrText).utf8ByteSize =
      failureSize call stdoutText stderrText := by
  simp only [failureText, String.utf8ByteSize_append, utf8ByteSize_outputText, failureSize,
    Invocation.utf8ByteSize_message]

theorem utf8ByteSize_deployCode (hadCredentials : Bool) :
    (deployCode hadCredentials).utf8ByteSize = 23 := by
  cases hadCredentials <;> decide

theorem utf8ByteSize_settingsText (msg : Option String) :
    (settingsText simpleName msg).utf8ByteSize =
      62 + simpleName.utf8ByteSize + 2 + (msg.getD "null").utf8ByteSize :=
  utf8ByteSize_between (by decide) utf8ByteSize_colon _ _

theorem utf8ByteSize_dispatcherText (msg : Option String) :
    (dispatcherText simpleName msg).utf8ByteSize =
      17 + simpleName.utf8ByteSize + 2 + (msg.getD "(no message)").utf8ByteSize :=
  utf8ByteSize_between (by decide) utf8ByteSize_colon _ _

section Reply

variable {text : Bytes → String} {reqId : UInt64} {id : String} {req : ActionRequest}

theorem size_failedResult (code msg : String) : envelopeSize protocolVersion reqId
        (Protobuf.fieldsSize (failedResult id code msg).fields) =
      failedSize reqId id.utf8ByteSize 1 0 0 code.utf8ByteSize msg.utf8ByteSize 0 [] := by
  simp [Ipc.Wire.ActionResult.fieldsSize_fields, failedResult, Error.fieldsSize_fields, failedSize]

theorem size_executed (stdout stderr : Bytes) (micros : Int64) :
    envelopeSize protocolVersion reqId (Protobuf.fieldsSize (dispatch text id req
          (.executed call stdout stderr micros)).fields) =
      replySize text reqId id req (.executed call stdout stderr micros) := by
  have core : coreErrorCode.utf8ByteSize = 23 := by decide
  rw [dispatch, doExecute, replySize, Ipc.Wire.ActionResult.fieldsSize_fields]
  split_ifs with succeeded refused
  · have other : Status.success.code ≠ Status.failure.code := by decide
    simp [maybeRewriteAuthError, other, succeeded.1]
  · rw [maybeRewriteAuthError, if_pos ⟨rfl, refused⟩]
    simp [failedSize, Error.fieldsSize_fields, utf8ByteSize_deployCode, utf8ByteSize_failureText]
  · rw [maybeRewriteAuthError, if_neg fun rewrites => refused rewrites.2]
    simp [failedSize, Error.fieldsSize_fields, core, utf8ByteSize_failureText]

theorem length_reply (exec : Execution) : (reply text reqId id req exec).toByteArray.length =
      replySize text reqId id req exec := by
  have invalid : codeDeployAuthInvalid.utf8ByteSize = 23 := by decide
  have inner : "BAR-DAEMON-DISPATCH-INTERNAL".utf8ByteSize = 28 := by decide
  rw [Envelope.length_toByteArray _ rfl]
  cases exec with
  | executed call stdout stderr micros =>
    exact size_executed call stdout stderr micros
  | settingsFailed simpleName msg =>
    rw [replySize, ← utf8ByteSize_settingsText, ← invalid]
    exact size_failedResult _ _
  | threw simpleName msg =>
    rw [replySize, ← utf8ByteSize_dispatcherText, ← inner]
    exact size_failedResult _ _

theorem distinct_doExecute (text : Bytes → String) (id : String) (call : Invocation)
    (stdout stderr : Bytes) (micros : Int64) :
    (doExecute text id call stdout stderr micros).Distinct := by
  intro err present
  rw [doExecute] at present
  split_ifs at present
  · simp at present
  · simp only [Option.mem_def, Option.some.injEq] at present
    subst present
    rw [Error.Distinct]
    cases call <;> simp [Invocation.failure]

theorem distinct_maybeRewriteAuthError {out : Ipc.Wire.ActionResult}
    (distinct : out.Distinct) (coords : String) (hadCredentials : Bool) :
    (maybeRewriteAuthError coords out hadCredentials).Distinct := by
  rw [maybeRewriteAuthError]
  split_ifs
  · intro err present
    simp only [Option.mem_def, Option.some.injEq] at present
    subst present
    rcases pre : out.error with _ | err
    · simp [Error.Distinct]
    · exact distinct err pre
  · exact distinct

theorem distinct_dispatch (exec : Execution) : (dispatch text id req exec).Distinct := by
  cases exec with
  | executed call stdout stderr micros =>
    exact distinct_maybeRewriteAuthError (distinct_doExecute _ _ _ _ _ _) _ _
  | settingsFailed simpleName msg | threw simpleName msg =>
    simp [Ipc.Wire.ActionResult.Distinct, dispatch, failedResult, Error.Distinct]

/-- The client receives exactly those outcomes whose texts are short enough. -/
theorem outcome_delivered_iff (text : Bytes → String) (reqId : UInt64) (id : String)
    (req : ActionRequest) (execution : Execution) :
    Delivered (reply text reqId id req execution) ↔
      replySize text reqId id req execution ≤ maxFrameBytes := by
  rw [delivered_iff rfl (distinct_dispatch execution), length_reply]

end Reply

theorem two_mul_le_failedSize (reqId : UInt64) (id : ℕ) (exit : Int32)
    (micros : Int64) (hint code msg stack : ℕ) (details : List (String × String)) :
    2 * msg ≤ failedSize reqId id exit micros hint code msg stack details := by
  have inResult := Protobuf.le_stringFieldSize 6 (hint + msg)
  have inError := Protobuf.le_stringFieldSize 2 msg
  have err := Protobuf.le_delimitedSize 9 (errorSize code msg details id)
  have out := Protobuf.le_delimitedSize 14 (resultSize id Status.failure.code exit
    micros (hint + msg) stack (some (errorSize code msg details id)))
  rw [failedSize, envelopeSize]
  simp only [resultSize, Option.map_some, Option.getD_some] at out ⊢
  rw [errorSize] at err out ⊢
  omega

theorem outputSize_replicate {count : ℕ} (positive : 0 < count) :
    outputSize (.ofList (List.replicate count 'x')) = 1 + count := by
  have letter : isWhitespace 'x' = false := by decide
  have shown : isBlank (.ofList (List.replicate count 'x')) = false := by
    simp [isBlank, letter, positive.ne']
  have stripped : stripTrailing (.ofList (List.replicate count 'x')) =
      .ofList (List.replicate count 'x') := by
    simp [stripTrailing, letter]
  have size : (String.ofList (List.replicate count 'x')).utf8ByteSize = count := by
    have one : 'x'.utf8Size = 1 := by decide
    rw [← Protobuf.length_asBytes, Text.asBytes]
    simp [one]
  rw [outputSize, shown, stripped, size]
  rfl

def plainText (bytes : Bytes) : String := .ofList (bytes.map fun byte => Char.ofNat byte.toNat)

def compileRequest : ActionRequest where
  mojoCoords := "compile"
  projectRoot := "/project"
  pomPath := "/project/pom.xml"
  workingDirectory := "/project"
  systemProperties := []
  environment := []
  stdoutStreamId := 1
  stderrStreamId := 2
  mavenCompat := "4"
  credentials := none

def chattyExecution : Execution := .executed (.exited 1) (List.replicate (8 * 1024 * 1024) 120) [] 0

theorem dispatch_chattyExecution (text : Bytes → String) (id : String) :
    dispatch text id compileRequest chattyExecution =
      doExecute text id (.exited 1) (List.replicate (8 * 1024 * 1024) 120) [] 0 := by
  have plain : isDeploy compileRequest.mojoCoords = false := by decide
  rw [chattyExecution, dispatch, maybeRewriteAuthError,
    if_neg fun rewrites => absurd rewrites.2.1 (by simp [plain])]

theorem plainText_replicate (count : ℕ) :
    plainText (List.replicate count 120) = .ofList (List.replicate count 'x') := by
  rw [plainText, List.map_replicate]
  rfl

/-- The client does not learn that the action has failed. -/
theorem chatty_outcome_not_delivered :
    (dispatch plainText "a1" compileRequest chattyExecution).exitCode = 1 ∧
      (dispatch plainText "a1" compileRequest chattyExecution).status = Status.failure.code ∧
        ¬Delivered (reply plainText 1 "a1" compileRequest chattyExecution) := by
  have failed : ¬((Invocation.exited 1).exitCode = 0 ∧ (Invocation.exited 1).failure = none) := by
    decide
  refine ⟨?_, ?_, ?_⟩
  · rw [dispatch_chattyExecution, doExecute, if_neg failed]
    rfl
  · rw [dispatch_chattyExecution, doExecute, if_neg failed]
  · rw [delivered_iff rfl (distinct_dispatch _), length_reply, chattyExecution, replySize,
      if_neg failed, failureSize, plainText_replicate, outputSize_replicate (by decide), not_le]
    have limit : maxFrameBytes = 2 * (8 * 1024 * 1024) := by decide
    refine lt_of_lt_of_le ?_ (two_mul_le_failedSize _ _ _ _ _ _ _ _ _)
    omega

end Barista.Daemon
