import TariVault.Data.ByteOrder
import TariVault.Rpc.Server

namespace TariVault

open Program

/-! # The bearer gate

A layer in front of the server that answers 401 unless a request carries the
configured token.
-/

/-- The bytes of a header value: no control characters, except for the tab. -/
def HeaderValue.Legal (byte : UInt8) : Prop := byte = 9 ∨ (32 ≤ byte ∧ byte ≠ 127)

instance : DecidablePred HeaderValue.Legal := fun byte =>
  inferInstanceAs (Decidable (byte = 9 ∨ (32 ≤ byte ∧ byte ≠ 127)))

structure HeaderValue where
  bytes : Bytes
  legal : ∀ byte ∈ bytes, HeaderValue.Legal byte

structure Request (Body : Type) where
  /-- The values of the `Authorization` header, in order. -/
  authorization : List HeaderValue
  body : Body

structure Response (Body : Type) where
  status : Nat
  headers : List (String × String)
  body : Body

/-- Visible ASCII, the space and the tab. -/
def HeaderValue.Visible (byte : UInt8) : Prop := byte = 9 ∨ (32 ≤ byte ∧ byte < 127)

instance : DecidablePred HeaderValue.Visible := fun byte =>
  inferInstanceAs (Decidable (byte = 9 ∨ (32 ≤ byte ∧ byte < 127)))

/-- What the gate uses of the http and subtle crates. -/
structure Http where
  get : List HeaderValue → Option HeaderValue
  toStr : HeaderValue → Option String
  ctEq : Bytes → Bytes → Bool

structure Http.Documented (http : Http) : Prop where
  get_eq : ∀ values, http.get values = values.head?
  toStr_eq_some : ∀ value text, http.toStr value = some text ↔
    (∀ byte ∈ value.bytes, HeaderValue.Visible byte) ∧ utf8 text = value.bytes
  ctEq_iff : ∀ left right, http.ctEq left right = true ↔ left = right

def stripPrefix (front text : String) : Option String :=
  if front.toList <+: text.toList then some (String.ofList (text.toList.drop front.toList.length)) else none

variable {β Body Reply ε σ : Type} {A : β → Type}

abbrev Service (A : β → Type) (Body Reply ε : Type) := Request Body → Host A (Except ε (Response Reply))

structure BearerAuthLayer where
  token : Option String

structure BearerAuthService (A : β → Type) (Body Reply ε : Type) where
  inner : Service A Body Reply ε
  token : Option String

namespace BearerAuthLayer

def new (token : String) : BearerAuthLayer := { token := some token }

def disabled : BearerAuthLayer := { token := none }

def fromConfig : Option String → BearerAuthLayer
  | some token => if token ≠ "" then new token else disabled
  | none => disabled

def layer (auth : BearerAuthLayer) (inner : Service A Body Reply ε) : BearerAuthService A Body Reply ε :=
  { inner, token := auth.token }

end BearerAuthLayer

def unauthorized [Inhabited Reply] : Response Reply where
  status := 401
  headers := [("www-authenticate", "Bearer realm=\"tari_vault\"")]
  body := default

namespace BearerAuthService

/-- The bytes after `Bearer ` in the first header value. -/
def provided (http : Http) (request : Request Body) : Option Bytes :=
  (((http.get request.authorization).bind http.toStr).bind (stripPrefix "Bearer ")).map utf8

def authOk (http : Http) (expected : String) (request : Request Body) : Bool :=
  ((provided http request).map fun bytes => http.ctEq bytes (utf8 expected)).getD false

def call [Inhabited Reply] (http : Http) (service : BearerAuthService A Body Reply ε) : Service A Body Reply ε :=
  fun request =>
    match service.token with
    | none => service.inner request
    | some expected =>
        if authOk http expected request then service.inner request
        else do
          Host.log "Rejected request: missing or invalid Bearer token"
          return .ok unauthorized

end BearerAuthService

/-- There is no token, or the first header value is `Bearer ` and the token. -/
def Passes (token : Option String) (request : Request Body) : Prop :=
  match token with
  | none => True
  | some expected => expected = "" ∨
      request.authorization.head?.map HeaderValue.bytes = some (utf8 "Bearer " ++ utf8 expected)

instance (token : Option String) : DecidablePred (@Passes Body token) := fun _ =>
  match token with
  | none => inferInstanceAs (Decidable True)
  | some _ => inferInstanceAs (Decidable (_ ∨ _))

/-- A request is handed on if it passes, and is otherwise answered at once. -/
def gated [Inhabited Reply] (token : Option String)
    (serve : Request Body → σ → Option (Except ε (Response Reply)) × σ) (request : Request Body) (state : σ) :
    Option (Except ε (Response Reply)) × σ :=
  if Passes token request then serve request state else (some (.ok unauthorized), state)

/-- What requests are answered one after the other, and the state that they leave. -/
def serveAll (serve : Request Body → σ → Option (Except ε (Response Reply)) × σ) :
    List (Request Body) → σ → List (Option (Except ε (Response Reply))) × σ
  | [], state => ([], state)
  | request :: rest, state =>
      ((serve request state).1 :: (serveAll serve rest (serve request state).2).1,
        (serveAll serve rest (serve request state).2).2)

/-- In front of any service, the layer does on these requests what the gate is for. -/
def BearerAuthLayer.ExactOn (http : Http) (token : Option String) (requests : List (Request Body)) : Prop :=
  ∀ {β Reply ε σ : Type} {A : β → Type} [Inhabited Reply] (inner : Service A Body Reply ε)
    {handle : σ → (op : HostOp β) → Option (HostOp.Answer A op × σ)}, LogsSilently handle → ∀ state,
    serveAll (fun request => (((fromConfig token).layer inner).call http request).exec handle) requests state =
      serveAll (gated token fun request => (inner request).exec handle) requests state

/-- The request does not present a token that has a byte beyond ASCII. -/
def Legible (token : Option String) (request : Request Body) : Prop :=
  ∀ expected, token = some expected →
    request.authorization.head?.map HeaderValue.bytes = some (utf8 "Bearer " ++ utf8 expected) →
    ∀ byte ∈ utf8 expected, byte < 128

/-- No byte of the token is beyond ASCII, or one of them is in no header value. -/
def Presentable (token : Option String) : Prop :=
  ∀ expected, token = some expected →
    (∀ byte ∈ utf8 expected, byte < 128) ∨ ∃ byte ∈ utf8 expected, ¬ HeaderValue.Legal byte

section OneRequest

variable {http : Http} {token : Option String} {expected : String} {request : Request Body}

theorem BearerAuthLayer.fromConfig_some (nonempty : expected ≠ "") :
    fromConfig (some expected) = new expected := if_pos nonempty

theorem stripPrefix_eq_some {front text rest : String} :
    stripPrefix front text = some rest ↔ text = front ++ rest := by
  unfold stripPrefix
  split
  · rename_i found
    obtain ⟨tail, spelled⟩ := found
    rw [← String.toList_inj, String.toList_append, ← spelled, List.drop_left, List.append_cancel_left_eq,
      Option.some.injEq, ← String.toList_inj, String.toList_ofList]
  · rename_i absent
    refine ⟨nofun, fun spelled => absurd ?_ absent⟩
    rw [spelled, String.toList_append]
    exact List.prefix_append ..

theorem provided_eq_some (documented : http.Documented) {rest : String} :
    BearerAuthService.provided http request = some (utf8 rest) ↔
      ∃ value ∈ request.authorization.head?, (∀ byte ∈ value.bytes, HeaderValue.Visible byte) ∧
        value.bytes = utf8 "Bearer " ++ utf8 rest := by
  unfold BearerAuthService.provided
  rw [documented.get_eq]
  constructor
  · intro found
    obtain ⟨other, stripped, same⟩ := Option.map_eq_some_iff.mp found
    obtain ⟨text, read, stripped⟩ := Option.bind_eq_some_iff.mp stripped
    obtain ⟨value, first, read⟩ := Option.bind_eq_some_iff.mp read
    obtain ⟨visible, spelled⟩ := (documented.toStr_eq_some value text).mp read
    refine ⟨value, first, visible, ?_⟩
    rw [← spelled, stripPrefix_eq_some.mp stripped, utf8_append, same]
  · intro found
    obtain ⟨value, first, visible, spelled⟩ := found
    have read : http.toStr value = some ("Bearer " ++ rest) :=
      (documented.toStr_eq_some value _).mpr ⟨visible, by rw [utf8_append, spelled]⟩
    have stripped : stripPrefix "Bearer " ("Bearer " ++ rest) = some rest := stripPrefix_eq_some.mpr rfl
    rw [Option.mem_def.mp first, Option.bind_some, read, Option.bind_some, stripped, Option.map_some]

theorem authOk_iff (documented : http.Documented) : BearerAuthService.authOk http expected request = true ↔
    BearerAuthService.provided http request = some (utf8 expected) := by
  unfold BearerAuthService.authOk
  cases BearerAuthService.provided http request with
  | none => simp
  | some bytes => simp [documented.ctEq_iff]

theorem visible_of_legal {byte : UInt8} (legal : HeaderValue.Legal byte) (ascii : byte < 128) :
    HeaderValue.Visible byte := by
  refine legal.imp_right fun visible => ⟨visible.1, ?_⟩
  have apart := visible.2
  rw [UInt8.lt_iff_toNat_lt] at ascii ⊢
  rw [Ne, ← UInt8.toNat_inj] at apart
  change byte.toNat < 128 at ascii
  change byte.toNat ≠ 127 at apart
  change byte.toNat < 127
  omega

theorem lt_of_visible {byte : UInt8} (visible : HeaderValue.Visible byte) : byte < 128 := by
  rcases visible with rfl | ⟨_, below⟩
  · decide
  · exact UInt8.lt_trans below (by decide)

/-- The check succeeds on what passes, if no byte of it is beyond ASCII. -/
theorem authOk_eq_passes (documented : http.Documented) (nonempty : expected ≠ "") :
    BearerAuthService.authOk http expected request = true ↔
      Passes (some expected) request ∧ Legible (some expected) request := by
  rw [authOk_iff documented, provided_eq_some documented]
  constructor
  · intro found
    obtain ⟨value, first, visible, spelled⟩ := found
    rw [Option.mem_def] at first
    refine ⟨.inr (by rw [first, Option.map_some, spelled]), fun other same presented byte member => ?_⟩
    cases same
    refine lt_of_visible (visible byte ?_)
    rw [spelled]
    exact List.mem_append_right _ member
  · intro both
    obtain ⟨empty | presented, legible⟩ := both
    · exact absurd empty nonempty
    obtain ⟨value, first, spelled⟩ := Option.map_eq_some_iff.mp presented
    refine ⟨value, first, fun byte member => visible_of_legal (value.legal byte member) ?_, spelled⟩
    rw [spelled] at member
    rcases List.mem_append.mp member with front | back
    · have word : ∀ byte ∈ utf8 "Bearer ", byte < 128 := by decide +kernel
      exact word byte front
    · exact legible expected rfl presented byte back

end OneRequest

section Sequence

variable [Inhabited Reply] {http : Http} {token : Option String}
  {handle : σ → (op : HostOp β) → Option (HostOp.Answer A op × σ)}

/-- The layer hands a request on, or answers it and leaves the state as it is. -/
theorem call_cases (documented : http.Documented) (silent : LogsSilently handle)
    (inner : Service A Body Reply ε) (request : Request Body) (state : σ) :
    let result := (((BearerAuthLayer.fromConfig token).layer inner).call http request).exec handle state
    (Passes token request ∧ Legible token request ∧ result = (inner request).exec handle state) ∨
      (¬ (Passes token request ∧ Legible token request) ∧ result = (some (.ok unauthorized), state)) := by
  cases token with
  | none => exact .inl ⟨trivial, nofun, rfl⟩
  | some expected =>
      by_cases empty : expected = ""
      · subst empty
        refine .inl ⟨.inl rfl, fun other same _ byte member => ?_, rfl⟩
        cases same
        contradiction
      · have required : BearerAuthLayer.fromConfig (some expected) = .new expected := if_pos empty
        have checked := @authOk_eq_passes _ _ _ request documented empty
        rw [required]
        simp only [BearerAuthLayer.layer, BearerAuthLayer.new, BearerAuthService.call]
        by_cases ok : BearerAuthService.authOk http expected request = true
        · rw [if_pos ok]
          exact .inl ⟨(checked.mp ok).1, (checked.mp ok).2, rfl⟩
        · rw [if_neg ok]
          exact .inr ⟨fun both => ok (checked.mpr both), exec_step (silent state _)⟩

/-- The layer does on a legible request what the gate is for. -/
theorem call_exact (documented : http.Documented) (silent : LogsSilently handle)
    (inner : Service A Body Reply ε) {request : Request Body} (legible : Legible token request) (state : σ) :
    (((BearerAuthLayer.fromConfig token).layer inner).call http request).exec handle state =
      gated token (fun request => (inner request).exec handle) request state := by
  unfold gated
  rcases call_cases documented silent inner request state with ⟨passes, _, handed⟩ | ⟨stopped, refused⟩
  · rw [if_pos passes]
    exact handed
  · rw [if_neg fun passes => stopped ⟨passes, legible⟩]
    exact refused

omit [Inhabited Reply] in
theorem serveAll_congr {serve serve' : Request Body → σ → Option (Except ε (Response Reply)) × σ}
    {requests : List (Request Body)} (same : ∀ request ∈ requests, serve request = serve' request) (state : σ) :
    serveAll serve requests state = serveAll serve' requests state := by
  induction requests generalizing state with
  | nil => rfl
  | cons request rest ih =>
      rw [serveAll, serveAll, same request List.mem_cons_self,
        ih fun request member => same request (List.mem_cons_of_mem _ member)]

omit [Inhabited Reply] in
theorem serveAll_answers (serve : Request Body → Unit → Option (Except ε (Response Reply)) × Unit)
    (requests : List (Request Body)) :
    (serveAll serve requests ()).1 = requests.map fun request => (serve request ()).1 := by
  induction requests with
  | nil => rfl
  | cons request rest ih => rw [serveAll, List.map_cons, ← ih]

end Sequence

def agreeing : Service Empty.elim Body Unit Empty := fun _ => pure (.ok { status := 200, headers := [], body := () })

def logOnly (state : Unit) : (op : HostOp Empty) → Option (HostOp.Answer Empty.elim op × Unit)
  | .log _ => some ((), state)
  | _ => none

theorem agreeing_refused {http : Http} (documented : http.Documented) {token : Option String}
    {request : Request Body} (illegible : ¬ Legible token request) :
    ((((BearerAuthLayer.fromConfig token).layer agreeing).call http request).exec logOnly ()).1 ≠
      (gated token (fun request => (agreeing request).exec logOnly) request ()).1 := by
  unfold Legible at illegible
  push Not at illegible
  obtain ⟨expected, rfl, presented, byte, member, beyond⟩ := illegible
  have nonempty : expected ≠ "" := by
    intro equal
    subst equal
    contradiction
  have passes : Passes (some expected) request := .inr presented
  have refused : ¬ BearerAuthService.authOk http expected request = true := fun ok =>
    beyond (((authOk_eq_passes documented nonempty).mp ok).2 expected rfl presented byte member)
  rw [BearerAuthLayer.fromConfig_some nonempty]
  simp only [BearerAuthLayer.layer, BearerAuthLayer.new, BearerAuthService.call, gated, if_neg refused,
    if_pos passes]
  intro same
  have answers : some (.ok unauthorized : Except Empty (Response Unit)) = some (.ok ⟨200, [], ()⟩) := same
  cases answers

theorem exactOn_iff {http : Http} (documented : http.Documented) {token : Option String}
    {requests : List (Request Body)} :
    BearerAuthLayer.ExactOn http token requests ↔ ∀ request ∈ requests, Legible token request := by
  constructor
  · intro exact request member
    by_contra illegible
    have silent : LogsSilently logOnly := fun _ _ => rfl
    have same := congrArg Prod.fst (exact agreeing silent ())
    rw [serveAll_answers, serveAll_answers, List.map_inj_left] at same
    exact agreeing_refused documented illegible (same request member)
  · intro legible _ _ _ _ _ _ inner handle silent state
    exact serveAll_congr (fun request member => funext fun state =>
      call_exact documented silent inner (legible request member) state) state

theorem legible_of_presentable {token : Option String} (presentable : Presentable token)
    (request : Request Body) : Legible token request := by
  intro expected same presented
  rcases presentable expected same with ascii | ⟨byte, member, illegal⟩
  · exact ascii
  · obtain ⟨value, _, spelled⟩ := Option.map_eq_some_iff.mp presented
    refine absurd (value.legal byte ?_) illegal
    rw [spelled]
    exact List.mem_append_right _ member

/-- A token that header values can hold, presented. -/
def presenting (expected : String) (legal : ∀ byte ∈ utf8 expected, HeaderValue.Legal byte) (body : Body) :
    Request Body where
  authorization := [⟨utf8 "Bearer " ++ utf8 expected, by
    intro byte member
    rcases List.mem_append.mp member with front | back
    · have word : ∀ byte ∈ utf8 "Bearer ", 32 ≤ byte ∧ byte ≠ 127 := by decide +kernel
      exact .inr (word byte front)
    · exact legal byte back⟩]
  body := body

/-- The layer is exact on requests that do not present a token with a byte beyond
ASCII, and on no others. So it is exact on all requests for the tokens without such
a byte, and for those that no header value can hold. -/
theorem exact_iff [Inhabited Body] {http : Http} (documented : http.Documented) (token : Option String) :
    (∀ requests : List (Request Body), BearerAuthLayer.ExactOn http token requests ↔
      ∀ request ∈ requests, Legible token request) ∧
    ((∀ requests : List (Request Body), BearerAuthLayer.ExactOn http token requests) ↔ Presentable token) := by
  refine ⟨fun requests => exactOn_iff documented, fun exact expected same => ?_, fun presentable requests => ?_⟩
  · by_cases legal : ∀ byte ∈ utf8 expected, HeaderValue.Legal byte
    · have legible := (exactOn_iff documented).mp (exact [presenting expected legal default])
      exact .inl (legible _ (List.mem_singleton_self _) expected same rfl)
    · push Not at legal
      exact .inr legal
  · exact (exactOn_iff documented).mpr fun request _ => legible_of_presentable presentable request

/-- The crates as they are documented. -/
def Http.concrete : Http where
  get values := values.head?
  toStr value :=
    if value.bytes.all fun byte => decide (HeaderValue.Visible byte) then some (ofAscii value.bytes) else none
  ctEq left right := left == right

theorem Http.concrete_documented : Http.concrete.Documented where
  get_eq values := rfl
  toStr_eq_some value text := by
    have all : (value.bytes.all fun byte => decide (HeaderValue.Visible byte)) = true ↔
        ∀ byte ∈ value.bytes, HeaderValue.Visible byte := by simp
    by_cases visible : ∀ byte ∈ value.bytes, HeaderValue.Visible byte
    · have spelled : utf8 (ofAscii value.bytes) = value.bytes :=
        utf8_ofAscii fun byte member => lt_of_visible (visible byte member)
      simp only [concrete, if_pos (all.mpr visible), Option.some.injEq]
      constructor
      · intro same
        exact ⟨visible, same ▸ spelled⟩
      · exact fun both => utf8_injective (spelled.trans both.2.symm)
    · simp only [concrete, if_neg (all.not.mpr visible)]
      exact iff_of_false (Option.some_ne_none text).symm fun both => visible both.1
  ctEq_iff left right := beq_iff_eq

theorem secret_ascii : ∀ byte ∈ utf8 "secret", byte < 128 := by decide +kernel

theorem secret_legal : ∀ byte ∈ utf8 "secret", HeaderValue.Legal byte := by decide +kernel

/-- Of two clients of a server with the token `secret`, the one that presents it gets
through. -/
theorem secret_exact : BearerAuthLayer.ExactOn .concrete (some "secret")
    [presenting "secret" secret_legal ([] : Bytes), { authorization := [], body := [] }] := by
  refine (exact_iff Http.concrete_documented (some "secret")).2.mpr (fun expected same => .inl ?_) _
  cases same
  exact secret_ascii

theorem accent_legal : ∀ byte ∈ utf8 "é", HeaderValue.Legal byte := by decide +kernel

/-- The client that presents the token `é` is refused. -/
theorem accent_refused :
    ¬ BearerAuthLayer.ExactOn .concrete (some "é") [presenting "é" accent_legal ([] : Bytes)] := by
  intro exact
  have legible := (exactOn_iff Http.concrete_documented).mp exact
  have ascii := legible _ (List.mem_singleton_self _) "é" rfl rfl
  revert ascii
  decide +kernel

end TariVault
