import TariVault.Rpc.Auth
import TariVault.Rpc.Consumption

namespace TariVault

open Json

/-! # The servers

The HTTP server in front of the handler, on its own or behind a TLS listener, and how
long a request body it takes.
-/

variable {β : Type} {A : β → Type} {json : SerdeJson}

structure TlsConfig where
  certPath : String
  keyPath : String

/-- What a started server runs with. It rejects a body that is longer than
`maxRequestBodySize`. -/
structure RpcServer (A : β → Type) where
  bindAddr : String
  /-- The address of the TLS listener, and its certificate. -/
  tlsListener : Option (String × TlsConfig)
  maxRequestBodySize : UInt32
  middleware : BearerAuthLayer
  rpcModule : VaultRpcImpl A

def saturatingAdd (left right : UInt64) : UInt64 :=
  if left.toNat + right.toNat < 2 ^ 64 then left + right else UInt64.ofNat (2 ^ 64 - 1)

def tryIntoU32 (value : UInt64) : Option UInt32 :=
  if value.toNat < 2 ^ 32 then some (UInt32.ofNat value.toNat) else none

/-- 4 KiB of headroom for the envelope. -/
def httpBodyLimit (maxProofSizeBytes : UInt64) : UInt32 :=
  (tryIntoU32 (saturatingAdd maxProofSizeBytes 4096)).getD (UInt32.ofNat (2 ^ 32 - 1))

def startPlain (bindAddr : String) (middleware : BearerAuthLayer) (rpcModule : VaultRpcImpl A)
    (maxProofSizeBytes : UInt64) : RpcServer A where
  bindAddr := bindAddr
  tlsListener := none
  maxRequestBodySize := httpBodyLimit maxProofSizeBytes
  middleware := middleware
  rpcModule := rpcModule

/-- The plain server behind the listener is on a loopback address. -/
def startTls (bindAddr : String) (middleware : BearerAuthLayer) (rpcModule : VaultRpcImpl A)
    (tlsCfg : TlsConfig) (maxProofSizeBytes : UInt64) : RpcServer A where
  bindAddr := "127.0.0.1:0"
  tlsListener := some (bindAddr, tlsCfg)
  maxRequestBodySize := httpBodyLimit maxProofSizeBytes
  middleware := middleware
  rpcModule := rpcModule

/-- Plain HTTP is only for loopback addresses, unless it is asked for. `isLoopback` is
what the standard library says of an address, if it parses. -/
def checkTlsForNonLoopback (isLoopback : String → Option Bool) (bindAddr : String) (tls : Option TlsConfig)
    (insecureNoTls : Bool) : Except String Unit :=
  if tls.isSome ∨ insecureNoTls then .ok ()
  else
    match isLoopback bindAddr with
    | none => .error ("invalid bind address: " ++ bindAddr)
    | some true => .ok ()
    | some false => .error ("TLS is disabled but the bind address (" ++ bindAddr ++
        ") is not a loopback address. Provide --tls-cert and --tls-key to enable TLS, bind to 127.0.0.1 / ::1, " ++
        "or pass --insecure-no-tls if TLS is terminated by an external proxy.")

def startServer (isLoopback : String → Option Bool) (bindAddr : String) (vault : ProofVault A)
    (authToken : Option String) (tls : Option TlsConfig) (insecureNoTls : Bool) (maxProofSizeBytes : UInt64) :
    Except String (RpcServer A) := do
  checkTlsForNonLoopback isLoopback bindAddr tls insecureNoTls
  let middleware := BearerAuthLayer.fromConfig authToken
  let rpcModule : VaultRpcImpl A := { vault, maxProofSizeBytes }
  match tls with
  | none => return startPlain bindAddr middleware rpcModule maxProofSizeBytes
  | some tlsCfg => return startTls bindAddr middleware rpcModule tlsCfg maxProofSizeBytes

theorem startServer_plain {isLoopback : String → Option Bool} {bindAddr : String} {vault : ProofVault A}
    {authToken : Option String} {insecureNoTls : Bool} {maxProofSizeBytes : UInt64} {server : RpcServer A}
    (started : startServer isLoopback bindAddr vault authToken none insecureNoTls maxProofSizeBytes = .ok server) :
    server.tlsListener = none := by
  cases checked : checkTlsForNonLoopback isLoopback bindAddr none insecureNoTls with
  | error message =>
      simp only [startServer, checked] at started
      contradiction
  | ok done =>
      simp only [startServer, checked] at started
      cases started
      rfl

/-- A server that starts without TLS is on a loopback address, or was asked for without. -/
theorem loopback_of_plain {isLoopback : String → Option Bool} {bindAddr : String} {vault : ProofVault A}
    {authToken : Option String} {tls : Option TlsConfig} {insecureNoTls : Bool} {maxProofSizeBytes : UInt64}
    {server : RpcServer A} (started : startServer isLoopback bindAddr vault authToken tls insecureNoTls
      maxProofSizeBytes = .ok server) (plain : server.tlsListener = none) :
    insecureNoTls = true ∨ isLoopback bindAddr = some true := by
  cases checked : checkTlsForNonLoopback isLoopback bindAddr tls insecureNoTls with
  | error message =>
      simp only [startServer, checked] at started
      contradiction
  | ok done =>
      simp only [startServer, checked] at started
      cases tls with
      | some tlsCfg =>
          cases started
          contradiction
      | none =>
          unfold checkTlsForNonLoopback at checked
          split at checked
          · rename_i exempt
            exact .inl (exempt.resolve_left (by simp))
          · split at checked
            · contradiction
            · rename_i loopback
              exact .inr loopback
            · contradiction

theorem toNat_saturatingAdd (left right : UInt64) :
    (saturatingAdd left right).toNat = min (left.toNat + right.toNat) (2 ^ 64 - 1) := by
  unfold saturatingAdd
  split
  · rw [UInt64.toNat_add]
    omega
  · rw [UInt64.toNat_ofNat_of_lt' (by decide)]
    omega

theorem toNat_httpBodyLimit (maxProofSizeBytes : UInt64) :
    (httpBodyLimit maxProofSizeBytes).toNat = min (maxProofSizeBytes.toNat + 4096) (2 ^ 32 - 1) := by
  have sum : (saturatingAdd maxProofSizeBytes 4096).toNat = min (maxProofSizeBytes.toNat + 4096) (2 ^ 64 - 1) :=
    toNat_saturatingAdd ..
  unfold httpBodyLimit tryIntoU32
  split
  · rename_i small
    rw [Option.getD_some, UInt32.toNat_ofNat_of_lt' small]
    omega
  · rw [Option.getD_none, UInt32.toNat_ofNat_of_lt' (by decide)]
    omega

/-- The body of a request to store a proof, around the text of its `proof_json`, which
stands inside `enclosing` arrays and objects. -/
structure StoreRequest (json : SerdeJson) where
  front : Bytes
  text : List Char
  back : Bytes
  enclosing : Nat
  value : JsonValue json
  received : JsonValue.receive enclosing text = some value

namespace StoreRequest

def spelling (request : StoreRequest json) : Bytes := utf8 (String.ofList request.text)

def body (request : StoreRequest json) : Bytes := request.front ++ (request.spelling ++ request.back)

def outside (request : StoreRequest json) : Nat := request.front.length + request.back.length

/-- The bytes that the handler counts. -/
def compact (request : StoreRequest json) : Nat := request.value.toString.utf8ByteSize

/-- The bytes of the spelling beyond those that the handler counts: blanks, escapes and
digits that a compact text does without. -/
def overhead (request : StoreRequest json) : Int := request.spelling.length - request.compact

/-- What the envelope leaves of the 4 KiB. -/
def headroom (request : StoreRequest json) : Int := 4096 - request.outside

/-- What the handler would still accept. -/
def slack (request : StoreRequest json) (maxProofSizeBytes : UInt64) : Int :=
  maxProofSizeBytes.toNat - request.compact

end StoreRequest

/-- If the handler's check of the size passes, the server takes the body. -/
def RpcServer.LetsThrough (server : RpcServer A) (request : StoreRequest json) : Prop :=
  server.rpcModule.checkSize request.value = .ok () →
    request.body.length ≤ server.maxRequestBodySize.toNat

theorem checkSize_eq_ok {rpc : VaultRpcImpl A} {value : JsonValue json} :
    rpc.checkSize value = .ok () ↔ value.toString.utf8ByteSize ≤ rpc.maxProofSizeBytes.toNat := by
  unfold VaultRpcImpl.checkSize
  split
  · rename_i large
    exact iff_of_false nofun large.not_ge
  · rename_i small
    exact iff_of_true rfl (Nat.le_of_not_lt small)

theorem StoreRequest.length_body (request : StoreRequest json) :
    request.body.length = request.spelling.length + request.outside := by
  rw [body, List.length_append, List.length_append, outside]
  omega

/-- The plain and the TLS server of a vault let the request through. -/
def ServersLetThrough (vault : ProofVault A) (request : StoreRequest json) (maxProofSizeBytes : UInt64) : Prop :=
  ∀ bindAddr middleware tlsCfg,
    (startPlain bindAddr middleware ⟨vault, maxProofSizeBytes⟩ maxProofSizeBytes).LetsThrough request ∧
      (startTls bindAddr middleware ⟨vault, maxProofSizeBytes⟩ tlsCfg maxProofSizeBytes).LetsThrough request

theorem serversLetThrough_iff {vault : ProofVault A} {request : StoreRequest json} {maxProofSizeBytes : UInt64} :
    ServersLetThrough vault request maxProofSizeBytes ↔
      request.slack maxProofSizeBytes < 0 ∨
        request.overhead ≤ request.slack maxProofSizeBytes + request.headroom ∧ request.body.length < 2 ^ 32 := by
  have arithmetic : (request.compact ≤ maxProofSizeBytes.toNat →
      request.spelling.length + request.outside ≤ min (maxProofSizeBytes.toNat + 4096) (2 ^ 32 - 1)) ↔
        request.slack maxProofSizeBytes < 0 ∨
          request.overhead ≤ request.slack maxProofSizeBytes + request.headroom ∧ request.body.length < 2 ^ 32 := by
    rw [request.length_body, StoreRequest.slack, StoreRequest.overhead, StoreRequest.headroom]
    omega
  have plain (bindAddr : String) (middleware : BearerAuthLayer) :
      (startPlain bindAddr middleware ⟨vault, maxProofSizeBytes⟩ maxProofSizeBytes).LetsThrough request ↔
        (request.compact ≤ maxProofSizeBytes.toNat →
          request.spelling.length + request.outside ≤ min (maxProofSizeBytes.toNat + 4096) (2 ^ 32 - 1)) := by
    rw [RpcServer.LetsThrough, startPlain, checkSize_eq_ok, toNat_httpBodyLimit, request.length_body,
      StoreRequest.compact]
  have tls (bindAddr : String) (middleware : BearerAuthLayer) (tlsCfg : TlsConfig) :
      (startTls bindAddr middleware ⟨vault, maxProofSizeBytes⟩ tlsCfg maxProofSizeBytes).LetsThrough request ↔
        (startPlain bindAddr middleware ⟨vault, maxProofSizeBytes⟩ maxProofSizeBytes).LetsThrough request := Iff.rfl
  rw [← arithmetic]
  constructor
  · intro both
    exact (plain "" .disabled).mp (both "" .disabled ⟨"", ""⟩).1
  · intro holds bindAddr middleware tlsCfg
    have through := (plain bindAddr middleware).mpr holds
    exact ⟨through, (tls bindAddr middleware tlsCfg).mpr through⟩

/-- The servers let through what the handler accepts if and only if the overhead of the
spelling is no more than the handler's slack and the headroom together, and the body
stays below 4 GiB. They do so whatever the maximum is when the headroom alone is
enough. -/
theorem letsThrough_iff (vault : ProofVault A) (request : StoreRequest json) :
    (∀ maxProofSizeBytes, ServersLetThrough vault request maxProofSizeBytes ↔
        request.slack maxProofSizeBytes < 0 ∨
          request.overhead ≤ request.slack maxProofSizeBytes + request.headroom ∧ request.body.length < 2 ^ 32) ∧
      ((∀ maxProofSizeBytes, ServersLetThrough vault request maxProofSizeBytes) ↔
        2 ^ 64 ≤ request.compact ∨ request.overhead ≤ request.headroom ∧ request.body.length < 2 ^ 32) := by
  refine ⟨fun _ => serversLetThrough_iff, fun all => ?_, fun holds maxProofSizeBytes => ?_⟩
  · by_cases huge : 2 ^ 64 ≤ request.compact
    · exact .inl huge
    · -- The least maximum with which the handler accepts leaves no slack.
      have exact : (UInt64.ofNat request.compact).toNat = request.compact :=
        UInt64.toNat_ofNat_of_lt' (Nat.lt_of_not_le huge)
      have tight := serversLetThrough_iff.mp (all (UInt64.ofNat request.compact))
      rw [StoreRequest.slack, exact] at tight
      omega
  · have bounded := maxProofSizeBytes.toNat_lt
    rw [serversLetThrough_iff, StoreRequest.slack]
    omega

def storeFront : List Char :=
  "\x7b\"jsonrpc\":\"2.0\",\"method\":\"vault_storeProof\",\"params\":[\x7b\"proof_json\":".toList

def storeBack : List Char := "\x7d],\"id\":1\x7d".toList

/-- What a request says that spells its proof between the two. -/
def storeDocument (proofJson : Json.Document) : Json.Document :=
  .object (.member "jsonrpc" (.text "2.0") (.member "method" (.text "vault_storeProof")
    (.member "params" (.array (.item (.object (.member "proof_json" proofJson .noMembers)) .noItems))
      (.member "id" (.number (.integer false 1)) .noMembers))))

/-- An empty array with spaces between its brackets. -/
def spacedText (spaces : Nat) : List Char := '[' :: (List.replicate spaces ' ' ++ [']'])

theorem lexFrom_spaced (spaces : Nat) (rest : List Char) :
    lexFrom .outside (spacedText spaces ++ rest) =
      (lexFrom .outside rest).map ([.openArray, .closeArray] ++ ·) := by
  have opens : lexStep .outside '[' = some (.outside, [.openArray]) := rfl
  have closes : lexStep .outside ']' = some (.outside, [.closeArray]) := rfl
  rw [spacedText, List.cons_append, List.append_assoc, lexFrom_cons, opens, Option.bind_some,
    lexFrom_append (lexThrough_blanks spaces), List.singleton_append, lexFrom_cons, closes, Option.bind_some,
    Option.map_map, Option.map_map]
  rfl

theorem spaced_received (spaces : Nat) :
    (JsonValue.receive 3 (spacedText spaces) : Option (JsonValue .decimal)) = some ⟨.array .noItems, trivial⟩ := by
  have lexes : lexFrom .outside (spacedText spaces) = some [.openArray, .closeArray] := by
    rw [← List.append_nil (spacedText spaces), lexFrom_spaced]
    rfl
  rw [JsonValue.receive, readDocument, lexes]
  rfl

set_option maxRecDepth 2048 in
theorem spaced_read (spaces : Nat) :
    readDocument recursionLimit (storeFront ++ (spacedText spaces ++ storeBack)) =
      some (storeDocument (.array .noItems)) := by
  have front : lexThrough .outside storeFront = some (.outside,
      [.openObject, .text "jsonrpc", .colon, .text "2.0", .comma, .text "method", .colon,
        .text "vault_storeProof", .comma, .text "params", .colon, .openArray, .openObject, .text "proof_json",
        .colon]) := rfl
  have back : lexFrom .outside storeBack = some
      [.closeObject, .closeArray, .comma, .text "id", .colon, .number (.integer false 1), .closeObject] := rfl
  rw [readDocument, lexFrom_append front, lexFrom_spaced, back]
  rfl

def spacedRequest (spaces : Nat) : StoreRequest .decimal where
  front := utf8 (String.ofList storeFront)
  text := spacedText spaces
  back := utf8 (String.ofList storeBack)
  enclosing := 3
  value := ⟨.array .noItems, trivial⟩
  received := spaced_received spaces

theorem length_spaced (spaces : Nat) : (spacedRequest spaces).spelling.length = spaces + 2 := by
  have ascii : Ascii (spacedText spaces) := by
    refine .cons (by decide) (Ascii.append (fun c member => ?_) (.cons (by decide) .nil))
    rw [List.eq_of_mem_replicate member]
    decide
  rw [StoreRequest.spelling, utf8_ascii (by rwa [String.toList_ofList])]
  simp [spacedRequest, spacedText]

theorem spaced_outside (spaces : Nat) : (spacedRequest spaces).outside ≤ 128 := by
  have short : (utf8 (String.ofList storeFront)).length + (utf8 (String.ofList storeBack)).length ≤ 128 := by
    decide
  exact short

theorem spaced_accepted (spaces : Nat) :
    (rpcServer .keyed 1024).checkSize (spacedRequest spaces).value = .ok () := rfl

/-- A request that the handler accepts and the server rejects: the proof is `[]`, spelled
with 8192 spaces, and the limit is 1024 bytes. -/
theorem spaces_rejected :
    (spacedRequest 8192).outside ≤ 4096 ∧
      (spacedRequest 8192).body = utf8 (String.ofList (storeFront ++ (spacedText 8192 ++ storeBack))) ∧
      readDocument recursionLimit (storeFront ++ (spacedText 8192 ++ storeBack)) =
        some (storeDocument (.array .noItems)) ∧
      (rpcServer .keyed 1024).checkSize (spacedRequest 8192).value = .ok () ∧
      ¬ (startPlain "127.0.0.1:0" .disabled (rpcServer .keyed 1024) 1024).LetsThrough (spacedRequest 8192) := by
  refine ⟨(spaced_outside _).trans (by decide), ?_, spaced_read _, spaced_accepted _, fun through => ?_⟩
  · simp [StoreRequest.body, StoreRequest.spelling, spacedRequest, utf8]
  · have fits := through (spaced_accepted 8192)
    rw [startPlain, toNat_httpBodyLimit, StoreRequest.length_body, length_spaced] at fits
    have limit : (1024 : UInt64).toNat = 1024 := rfl
    omega

theorem spaces_let_through : ∀ maxProofSizeBytes,
    ServersLetThrough (rpcServer .keyed 1024).vault (spacedRequest 8) maxProofSizeBytes := by
  have spelled := length_spaced 8
  have measured : (spacedRequest 8).compact = 2 := rfl
  have outside := spaced_outside 8
  have whole := (spacedRequest 8).length_body
  refine (letsThrough_iff (rpcServer .keyed 1024).vault (spacedRequest 8)).2.mpr (.inr ⟨?_, by omega⟩)
  rw [StoreRequest.overhead, StoreRequest.headroom]
  omega

end TariVault
