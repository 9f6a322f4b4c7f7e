import AskUser.Lib.CString
import AskUser.MalformedRequest

/-!
# What the dialog says

`AskUINotificationBackend::createUI`, the function that writes the question and puts it on the
screen. The calls out of it are a parameter (`Calls`): the notification framework, the privilege
manager, the message catalogue and the bundle.

The question goes through `c_str()` and through a buffer of `BUFSIZ` bytes, where `snprintf` cuts
it off without a failure. `asksWholeQuestion_iff` says when the user is shown all of it, or the
request is refused.
-/

namespace AskUser.Agent
open ByteText RequestType Fallible

/-- The translation of `SID_PRIVILEGE_REQUEST_DIALOG_MESSAGE`: a text with three `%s`, and no other
percent sign. -/
structure MessageFormat where
  beforeClient : Bytes
  beforeUser : Bytes
  beforePrivilege : Bytes
  rest : Bytes
  plain : ∀ s ∈ [beforeClient, beforeUser, beforePrivilege, rest], byte '%' ∉ s ∧ (0 : UInt8) ∉ s

namespace MessageFormat

variable (m : MessageFormat)

/-- The format that is given to `snprintf`. -/
def format : CString where
  bytes := m.beforeClient ++ (directive ++ (m.beforeUser ++ (directive ++
    (m.beforePrivilege ++ (directive ++ m.rest)))))
  noNul := by
    have hdir : (0 : UInt8) ∉ directive := by decide
    have hplain := m.plain
    simp only [List.mem_cons, List.not_mem_nil, or_false, forall_eq_or_imp, forall_eq] at hplain
    simp [hdir, hplain]

/-- The message about three strings. -/
def message (client user privilege : Bytes) : Bytes :=
  m.beforeClient ++ (client ++ (m.beforeUser ++ (user ++ (m.beforePrivilege ++ (privilege ++
    m.rest)))))

theorem expand_format (client user privilege : CString) :
    expand m.format.bytes [client, user, privilege] =
      m.message client.bytes user.bytes privilege.bytes := by
  have hplain := m.plain
  simp only [List.mem_cons, List.not_mem_nil, or_false, forall_eq_or_imp, forall_eq] at hplain
  obtain ⟨h₁, h₂, h₃, h₄⟩ := hplain
  show expand (m.beforeClient ++ _) _ = _
  rw [expand_plain h₁.1, expand_directive, expand_plain h₂.1, expand_directive,
    expand_plain h₃.1, expand_directive, ← List.append_nil m.rest, expand_plain h₄.1, expand]
  simp [message]

/-- `en.po`. -/
def en : MessageFormat where
  beforeClient := text "Application: "
  beforeUser := text ", ran by user: "
  beforePrivilege := text ", requested privilege:\n"
  rest := text "\nGrant access to privilege?"
  plain := by decide +kernel

example : en.format.bytes = text
    "Application: %s, ran by user: %s, requested privilege:\n%s\nGrant access to privilege?" := by
  decide +kernel

end MessageFormat

/-- What the calls out of one run of `createUI` come to. -/
structure Calls where
  notification_new : Bool
  /-- the values returned for package name, title, content, execute option and insertion -/
  set_pkgname : ℤ
  set_title : ℤ
  set_content : ℤ
  set_execute_option : ℤ
  insert : ℤ
  privilege_info_get_privilege_display_name : CString → Except ℤ CString
  bundle_create : Bool
  bundle_add : ℤ
  dialogTitle : CString
  messageFormat : MessageFormat
  buttons : Vector CString 6

/-- The texts that the notification was given. -/
structure Notification where
  pkgname : Option CString
  title : Option CString
  content : Option CString
  buttons : Option CString
  inserted : Bool

namespace Notification

def new : Notification := ⟨none, none, none, none, false⟩

end Notification

variable (C : LibcLimits) (E : Calls)

/-- `privilegeDisplayName`: the privilege itself, where the privilege manager knows no name. -/
def privilegeDisplayName (privilege : Bytes) : CString :=
  match E.privilege_info_get_privilege_display_name (c_str privilege) with
  | .ok name => name
  | .error _ => c_str privilege

/-- The format of the button texts. -/
def buttonsFormat : CString where
  bytes := text "%s,%s,%s,%s,%s,%s"
  noNul := by decide +kernel

def createUI (client user privilege : Bytes) : StateM (Option Notification) Bool := do
  if !E.notification_new then return false
  set (some Notification.new)

  modify (Option.map fun n => { n with pkgname := some (c_str (text "cynara-askuser")) })
  if E.set_pkgname ≠ NOTIFICATION_ERROR_NONE then return false

  modify (Option.map fun n => { n with title := some E.dialogTitle })
  if E.set_title ≠ NOTIFICATION_ERROR_NONE then return false

  let (ret, tmpBuffer) := snprintf C C.BUFSIZ E.messageFormat.format
    [c_str client, c_str user, privilegeDisplayName E privilege]
  if ret < 0 then return false

  modify (Option.map fun n => { n with content := some tmpBuffer })
  if E.set_content ≠ NOTIFICATION_ERROR_NONE then return false

  let (ret, tmpBuffer) := snprintf C C.BUFSIZ buttonsFormat E.buttons.toList
  if ret < 0 then return false
  if !E.bundle_create then return false
  if E.bundle_add ≠ 0 then return false

  modify (Option.map fun n => { n with buttons := some tmpBuffer })
  if E.set_execute_option ≠ NOTIFICATION_ERROR_NONE then return false
  if E.insert ≠ NOTIFICATION_ERROR_NONE then return false
  modify (Option.map fun n => { n with inserted := true })
  return true

/-! ### What it shows -/

/-- The text that `snprintf` makes of the question, before it cuts it off. -/
def shownQuestion (d : RequestData) : Bytes :=
  E.messageFormat.message (c_str d.client).bytes (c_str d.user).bytes
    (privilegeDisplayName E d.privilege).bytes

/-- The question with all of the strings in it. -/
def wholeQuestion (d : RequestData) : Bytes :=
  E.messageFormat.message d.client d.user
    (match E.privilege_info_get_privilege_display_name (c_str d.privilege) with
      | .ok name => name.bytes
      | .error _ => d.privilege)

/-- One of the calls out of `createUI` fails. -/
def CallFails (d : RequestData) : Prop :=
  E.notification_new = false ∨ E.set_pkgname ≠ NOTIFICATION_ERROR_NONE ∨
    E.set_title ≠ NOTIFICATION_ERROR_NONE ∨ C.INT_MAX < (shownQuestion E d).length ∨
    E.set_content ≠ NOTIFICATION_ERROR_NONE ∨
    C.INT_MAX < (expand buttonsFormat.bytes E.buttons.toList).length ∨
    E.bundle_create = false ∨ E.bundle_add ≠ 0 ∨
    E.set_execute_option ≠ NOTIFICATION_ERROR_NONE ∨ E.insert ≠ NOTIFICATION_ERROR_NONE

/-- The question is a C string, and the buffer holds it with the NUL at its end. -/
def Fits (d : RequestData) : Prop :=
  (0 : UInt8) ∉ wholeQuestion E d ∧ (wholeQuestion E d).length < C.BUFSIZ

variable {C E} {d : RequestData} {n : Option Notification}

theorem snprintf_question_neg_iff : (snprintf C C.BUFSIZ E.messageFormat.format
    [c_str d.client, c_str d.user, privilegeDisplayName E d.privilege]).1 < 0 ↔
      C.INT_MAX < (shownQuestion E d).length := by
  rw [snprintf_neg_iff, MessageFormat.expand_format, shownQuestion]

/-- **The dialog** is put on the screen unless a call fails, and this is what it was given. -/
theorem createUI_eq_true_iff : createUI C E d.client d.user d.privilege none = (true, n) ↔
    ¬ CallFails C E d ∧ n = some
      { pkgname := some (c_str (text "cynara-askuser"))
        title := some E.dialogTitle
        content := some (snprintf C C.BUFSIZ E.messageFormat.format
          [c_str d.client, c_str d.user, privilegeDisplayName E d.privilege]).2
        buttons := some (snprintf C C.BUFSIZ buttonsFormat E.buttons.toList).2
        inserted := true } := by
  rw [createUI, early_return, set_then, modify_then, early_return, modify_then, early_return]
  dsimp only
  rw [early_return, modify_then, early_return, early_return, early_return, early_return,
    modify_then, early_return, early_return, modify_then, return_true, snprintf_question_neg_iff,
    snprintf_neg_iff]
  simp only [CallFails, not_or, and_assoc, ne_eq, not_not, Option.map_some, Notification.new,
    Bool.not_eq_eq_eq_not, Bool.not_true]

theorem createUI_eq_false (h : CallFails C E d) :
    (createUI C E d.client d.user d.privilege none).1 = false := by
  rw [← Bool.not_eq_true]
  intro htrue
  exact (createUI_eq_true_iff.1 (Prod.ext htrue rfl)).1 h

/-! ### The whole question -/

theorem not_mem_wholeQuestion (h : (0 : UInt8) ∉ wholeQuestion E d) :
    (0 : UInt8) ∉ d.client ∧ (0 : UInt8) ∉ d.user ∧
      ∀ e, E.privilege_info_get_privilege_display_name (c_str d.privilege) = .error e →
        (0 : UInt8) ∉ d.privilege := by
  simp only [wholeQuestion, MessageFormat.message, List.mem_append, not_or] at h
  obtain ⟨-, hclient, -, huser, -, hname, -⟩ := h
  refine ⟨hclient, huser, fun e he => ?_⟩
  simpa only [he] using hname

/-- Without a NUL, `c_str()` leaves nothing out. -/
theorem shownQuestion_eq (h : (0 : UInt8) ∉ wholeQuestion E d) :
    shownQuestion E d = wholeQuestion E d := by
  obtain ⟨hclient, huser, hprivilege⟩ := not_mem_wholeQuestion h
  rw [shownQuestion, wholeQuestion, c_str_bytes hclient, c_str_bytes huser, privilegeDisplayName]
  cases hname : E.privilege_info_get_privilege_display_name (c_str d.privilege) with
  | ok name => rfl
  | error e => rw [c_str_bytes (hprivilege e hname)]

/-- An Action with these data is answered with one error response, and not recorded. -/
def Refused (d : RequestData) (created : Bool) : Prop :=
  ∀ (L : Limits) (c : Choice) (s : Agent) (p : RequestPtr) (r : Request),
    s.store.objects.cell p = some r → r.type = RT_Action →
    s.store.requests.lookup r.id = none →
    Translator.Agent.dataToRequest L c.strSize r.data = .ok d → c.createUI = created →
    ∃ s', processCynaraRequest L c p s = .ok () s' ∧ s'.store.requests.lookup r.id = none ∧
      responses (s'.store.story p) = responses (s.store.story p) ++
        [⟨RT_Action, r.id, AgentErrorMsg.Error, .startFailure⟩]

/-- What the dialog should ask for the strings of a request: all of the question, and where that is
not possible the request is refused. -/
structure AsksWholeQuestion (C : LibcLimits) (E : Calls) (d : RequestData) : Prop where
  shown : ∀ n, createUI C E d.client d.user d.privilege none = (true, some n) →
    n.content.map CString.bytes = some (wholeQuestion E d)
  refused : ¬ Fits C E d → (createUI C E d.client d.user d.privilege none).1 = false ∧
    Refused d (createUI C E d.client d.user d.privilege none).1

/-- A dialog that could not be created is an error response. -/
theorem refused_false (d : RequestData) : Refused d false := by
  intro L c s p r hp haction hl hd hc
  refine ⟨_, processCynaraRequest_fails hp haction hl hd hc, hl, ?_⟩
  simp [responses, startFailure, Translator.Agent.answerToData, AgentErrorMsg.Error]

/-- A question that fits is shown as it is. -/
theorem content_of_fits (hfits : Fits C E d) {n : Notification}
    (hn : createUI C E d.client d.user d.privilege none = (true, some n)) :
    n.content.map CString.bytes = some (wholeQuestion E d) := by
  obtain ⟨hcalls, hn⟩ := createUI_eq_true_iff.1 hn
  obtain rfl := Option.some.inj hn
  have hlength : ¬ C.INT_MAX < (shownQuestion E d).length := fun h =>
    hcalls (Or.inr (Or.inr (Or.inr (Or.inl h))))
  show some (snprintf C C.BUFSIZ E.messageFormat.format _).2.bytes = _
  rw [snprintf_bytes (by rwa [MessageFormat.expand_format]), MessageFormat.expand_format]
  show some ((shownQuestion E d).take (C.BUFSIZ - 1)) = _
  rw [shownQuestion_eq hfits.1, List.take_of_length_le]
  have := hfits.2
  omega

/-- A question that does not fit is put on the screen all the same, if no call fails. -/
theorem not_asksWholeQuestion (hfits : ¬ Fits C E d) (hcalls : ¬ CallFails C E d) :
    ¬ AsksWholeQuestion C E d := by
  intro h
  have htrue := createUI_eq_true_iff.2 ⟨hcalls, rfl⟩
  exact absurd (h.refused hfits).1 (by rw [htrue]; simp)

/-- **The whole question.** The user is shown all of it, or the request is refused, if and only if
it is a C string that fits into the buffer or one of the calls out of `createUI` fails. -/
theorem asksWholeQuestion_iff : AsksWholeQuestion C E d ↔ Fits C E d ∨ CallFails C E d := by
  constructor
  · intro h
    by_contra hnot
    obtain ⟨hfits, hcalls⟩ := not_or.1 hnot
    exact not_asksWholeQuestion hfits hcalls h
  · rintro (hfits | hcalls)
    · exact ⟨fun n hn => content_of_fits hfits hn, fun hnot => absurd hfits hnot⟩
    · have hfalse := createUI_eq_false hcalls
      refine ⟨fun n hn => ?_, fun _ => ⟨hfalse, hfalse ▸ refused_false d⟩⟩
      rw [hn] at hfalse
      exact absurd hfalse (by simp)

/-- No call fails, and the texts are those of `en.po`. -/
def Calls.en : Calls where
  notification_new := true
  set_pkgname := 0
  set_title := 0
  set_content := 0
  set_execute_option := 0
  insert := 0
  privilege_info_get_privilege_display_name := .ok
  bundle_create := true
  bundle_add := 0
  dialogTitle := c_str (text "Privilege request")
  messageFormat := .en
  buttons := #v[c_str (text "No"), c_str (text "No session"), c_str (text "No restart"),
    c_str (text "Yes"), c_str (text "Yes session"), c_str (text "Yes restart")]

/-- With these calls a question of moderate length is put on the screen. -/
theorem not_callFails_en (h : d.client.length + d.user.length + d.privilege.length ≤ 2 ^ 30) :
    ¬ CallFails .glibc Calls.en d := by
  have hbuttons : (expand buttonsFormat.bytes Calls.en.buttons.toList).length ≤ 100 := by
    decide +kernel
  have hshown : (shownQuestion Calls.en d).length ≤ 2 ^ 30 + 100 := by
    have htexts : MessageFormat.en.beforeClient.length + MessageFormat.en.beforeUser.length +
        MessageFormat.en.beforePrivilege.length + MessageFormat.en.rest.length ≤ 100 := by
      decide +kernel
    have hclient := length_c_str_le d.client
    have huser := length_c_str_le d.user
    have hprivilege := length_c_str_le d.privilege
    simp only [shownQuestion, MessageFormat.message, List.length_append, privilegeDisplayName]
    show MessageFormat.en.beforeClient.length + (_ + (MessageFormat.en.beforeUser.length + (_ +
      (MessageFormat.en.beforePrivilege.length + ((c_str d.privilege).bytes.length +
        MessageFormat.en.rest.length))))) ≤ _
    omega
  have hmax : LibcLimits.glibc.INT_MAX = 2 ^ 31 - 1 := rfl
  rintro (h | h | h | h | h | h | h | h | h | h)
  all_goals first | exact absurd h (by decide) | omega

/-- An application that asks for the camera. -/
def cameraRequest (client : Bytes) : RequestData := ⟨client, [], text "camera"⟩

theorem length_camera : (text "camera").length ≤ 100 := by decide +kernel

/-- Such a request reaches the agent with all of its bytes. -/
theorem dataToRequest_camera {client : Bytes} (h : client.length ≤ 8192) :
    Translator.Agent.dataToRequest .lp64 0
      (Translator.Plugin.requestToData client [] (text "camera")) = .ok (cameraRequest client) := by
  have hmax : Limits.lp64.maxSize = 2 ^ 63 - 1 := rfl
  have hcamera := length_camera
  have hdata := Translator.dataToRequest_requestToData .lp64 0 client [] (text "camera") []
    (by omega) (by simp) (by omega)
  rwa [List.append_nil] at hdata

theorem not_callFails_camera {client : Bytes} (h : client.length ≤ 8192) :
    ¬ CallFails .glibc Calls.en (cameraRequest client) := by
  refine not_callFails_en ?_
  have hcamera := length_camera
  show client.length + 0 + (text "camera").length ≤ _
  omega

/-- A name as long as the buffer. -/
def longName : Bytes := List.replicate 8192 (byte 'a')

/-- A name with a NUL in it. -/
def nulName : Bytes := [byte 'a', 0, byte 'b']

theorem length_longName : longName.length = 8192 := List.length_replicate

theorem not_fits_longName : ¬ Fits .glibc Calls.en (cameraRequest longName) := by
  rintro ⟨-, hlength⟩
  simp only [wholeQuestion, MessageFormat.message, List.length_append, cameraRequest,
    length_longName] at hlength
  have hsize : LibcLimits.glibc.BUFSIZ = 8192 := rfl
  omega

theorem not_fits_nulName : ¬ Fits .glibc Calls.en (cameraRequest nulName) := by
  rintro ⟨hnul, -⟩
  exact (not_mem_wholeQuestion hnul).1 (by simp [cameraRequest, nulName])

/-- A long name pushes the privilege out of the dialog, and a name with a NUL in it is cut off
there. -/
theorem not_asksWholeQuestion_longName :
    (Translator.Agent.dataToRequest .lp64 0
        (Translator.Plugin.requestToData longName [] (text "camera")) =
          .ok (cameraRequest longName) ∧
      ¬ AsksWholeQuestion .glibc Calls.en (cameraRequest longName)) ∧
    Translator.Agent.dataToRequest .lp64 0
        (Translator.Plugin.requestToData nulName [] (text "camera")) =
          .ok (cameraRequest nulName) ∧
      ¬ AsksWholeQuestion .glibc Calls.en (cameraRequest nulName) := by
  have hlong : longName.length ≤ 8192 := length_longName.le
  have hnul : nulName.length ≤ 8192 := by simp [nulName]
  exact ⟨⟨dataToRequest_camera hlong,
      not_asksWholeQuestion not_fits_longName (not_callFails_camera hlong)⟩,
    dataToRequest_camera hnul,
    not_asksWholeQuestion not_fits_nulName (not_callFails_camera hnul)⟩

end AskUser.Agent
