import Mathlib.Data.List.DropRight
import Loft.Coap.ContentRange
import Loft.Psk
import Loft.Upstream

namespace Loft

open Loft.Coap

/-! Configuration from the environment. The selectors and the tuning variables
fail closed on a value they cannot read; the cache times do not. -/

inductive DtlsStack
  | openssl
  | mbedtls
  deriving DecidableEq, Repr

structure Config where
  udpListen : String
  tcpListen : String
  dovecoteUrl : String
  serviceSecret : String
  pskCacheTtl : Nat
  dtlsStack : DtlsStack
  dtlsMbedCanaryAddr : Option String
  dtlsCidIdle : Nat
  handshakeDeadline : Nat
  -- The exponent of the block size.
  udpMaxBlockSzx : UInt8
  deriving DecidableEq, Repr

def defaultCidIdle : Nat := secs 21600
def defaultHandshakeDeadlineSecs : Nat := 30
def maxHandshakeDeadlineSecs : Nat := 300

inductive ReadError
  | notFound
  | other (text : String)
  deriving DecidableEq, Repr

/-- A variable that is not Unicode counts as unset. -/
structure Environment where
  var : String → Option String
  readToString : String → Except ReadError String

inductive ConfigError
  | unreadableSecret (path error : String)
  | unsetSecret
  | emptySecret
  | dtlsStack (got : String)
  | handshakeDeadline (got : String)
  | udpMaxBlock (got : String)
  deriving DecidableEq, Repr

namespace ConfigError

def varName : ConfigError → String
  | .unreadableSecret _ _ | .unsetSecret | .emptySecret => "COAP_SERVICE_SECRET"
  | .dtlsStack _ => "LOFT_DTLS_STACK"
  | .handshakeDeadline _ => "LOFT_HANDSHAKE_DEADLINE_SECS"
  | .udpMaxBlock _ => "LOFT_UDP_MAX_BLOCK_BYTES"

/-- What stands before and after the name of the variable; `debug` quotes a
string, as `{:?}` does. -/
def around (debug : String → String) : ConfigError → String × String
  | .unreadableSecret path error =>
      ("failed to read credential ", " from " ++ path ++ ": " ++ error)
  | .unsetSecret => ("", " is not set (shared secret with dovecote)")
  | .emptySecret => ("", " is empty")
  | .dtlsStack got =>
      ("", " must be \"openssl\" or \"mbedtls\", got " ++ debug got)
  | .handshakeDeadline got =>
      ("", " must be 1..=" ++ toString maxHandshakeDeadlineSecs ++
        " seconds, got " ++ debug got)
  | .udpMaxBlock got =>
      ("", " must be a CoAP block size (16, 32, 64, 128, 256, 512, 1024), got "
        ++ debug got)

def text (debug : String → String) (e : ConfigError) : String :=
  (e.around debug).1 ++ e.varName ++ (e.around debug).2

end ConfigError

def parseDtlsStack : Option String → Except ConfigError DtlsStack
  | none => .ok .openssl
  | some value =>
      if value = "openssl" then .ok .openssl
      else if value = "mbedtls" then .ok .mbedtls
      else .error (.dtlsStack value)

def parseHandshakeDeadline : Option String → Except ConfigError Nat
  | none => .ok (secs defaultHandshakeDeadlineSecs)
  | some raw =>
      match parseU64 (trim raw.toList) with
      | some n =>
          if 1 ≤ n ∧ n ≤ maxHandshakeDeadlineSecs then .ok (secs n)
          else .error (.handshakeDeadline raw)
      | none => .error (.handshakeDeadline raw)

def szxForBytes (bytes : Nat) : Option UInt8 :=
  ((List.range (maxSzx.toNat + 1)).map UInt8.ofNat).find? fun szx =>
    sizeFor szx == bytes

def parseUdpMaxBlock : Option String → Except ConfigError UInt8
  | none => .ok maxSzx
  | some raw =>
      match (parseU64 (trim raw.toList)).bind szxForBytes with
      | some szx => .ok szx
      | none => .error (.udpMaxBlock raw)

/-- `Path::join` of a relative name. -/
def joinPath (dir name : String) : String :=
  if dir = "" then name
  else if dir.toList.getLast? = some '/' then dir ++ name
  else dir ++ "/" ++ name

/-- `str::trim_end_matches` of a character. -/
def trimEndMatches (c : Char) (text : String) : String :=
  String.ofList (text.toList.reverse.dropWhile (· == c)).reverse

/-- A credential file wins over the variable. -/
def resolveServiceSecret (env : Environment) (credentialsDir : Option String)
    (envSecret : Option String) : Except ConfigError String :=
  let fallback :=
    match envSecret with
    | some secret => .ok secret
    | none => .error .unsetSecret
  match credentialsDir with
  | none => fallback
  | some dir =>
      match env.readToString (joinPath dir "COAP_SERVICE_SECRET") with
      | .ok contents => .ok (trimEndMatches '\n' contents)
      | .error .notFound => fallback
      | .error (.other text) => .error
          (.unreadableSecret (joinPath dir "COAP_SERVICE_SECRET") text)

namespace Environment

def envOr (env : Environment) (key default : String) : String :=
  (env.var key).getD default

def secsOr (env : Environment) (key : String) (default : Nat) : Nat :=
  (((env.var key).bind fun value => parseU64 value.toList).map secs).getD
    default

end Environment

def isBlank (text : String) : Bool :=
  (trim text.toList).isEmpty

/-- The fields that no value of a variable makes fail. -/
def Config.withEnv (env : Environment) (serviceSecret : String)
    (dtlsStack : DtlsStack) (handshakeDeadline : Nat)
    (udpMaxBlockSzx : UInt8) : Config where
  udpListen := env.envOr "LOFT_UDP_LISTEN" "0.0.0.0:5684"
  tcpListen := env.envOr "LOFT_TCP_LISTEN" "0.0.0.0:5684"
  dovecoteUrl := trimEndSlashes
    (env.envOr "LOFT_DOVECOTE_URL" "https://api.pidgeiot.com")
  serviceSecret := serviceSecret
  pskCacheTtl := env.secsOr "LOFT_PSK_TTL_SECS" Psk.defaultPositiveTtl
  dtlsStack := dtlsStack
  dtlsMbedCanaryAddr :=
    (env.var "LOFT_DTLS_MBED_CANARY_ADDR").filter (!isBlank ·)
  dtlsCidIdle := env.secsOr "LOFT_DTLS_CID_IDLE_SECS" defaultCidIdle
  handshakeDeadline := handshakeDeadline
  udpMaxBlockSzx := udpMaxBlockSzx

def Config.fromEnv (env : Environment) : Except ConfigError Config := do
  let serviceSecret ← resolveServiceSecret env
    (env.var "CREDENTIALS_DIRECTORY") (env.var "COAP_SERVICE_SECRET")
  if isBlank serviceSecret then throw .emptySecret
  let dtlsStack ← parseDtlsStack (env.var "LOFT_DTLS_STACK")
  let handshakeDeadline ←
    parseHandshakeDeadline (env.var "LOFT_HANDSHAKE_DEADLINE_SECS")
  let udpMaxBlockSzx ← parseUdpMaxBlock (env.var "LOFT_UDP_MAX_BLOCK_BYTES")
  return Config.withEnv env serviceSecret dtlsStack handshakeDeadline
    udpMaxBlockSzx

/-! What a configuration is, whatever environment it is read from. -/

def DtlsStack.name : DtlsStack → String
  | .openssl => "openssl"
  | .mbedtls => "mbedtls"

namespace Config

structure WellFormed (config : Config) : Prop where
  secret : isBlank config.serviceSecret = false
  url : trimEndSlashes config.dovecoteUrl = config.dovecoteUrl
  ttl : ∃ n < 2 ^ 64, config.pskCacheTtl = secs n
  canary : ∀ addr ∈ config.dtlsMbedCanaryAddr, isBlank addr = false
  idle : ∃ n < 2 ^ 64, config.dtlsCidIdle = secs n
  deadline : ∃ n, 1 ≤ n ∧ n ≤ maxHandshakeDeadlineSecs ∧
    config.handshakeDeadline = secs n
  block : config.udpMaxBlockSzx ≤ maxSzx

/-- No credential file is there to be read. -/
def NoCredential (env : Environment) : Prop :=
  ∀ dir, env.var "CREDENTIALS_DIRECTORY" = some dir →
    env.readToString (joinPath dir "COAP_SERVICE_SECRET") = .error .notFound

/-- The secret of a deployment, less the newlines a credential file ends in. -/
inductive Provided (env : Environment) : String → Prop
  | credential {dir contents : String} :
      env.var "CREDENTIALS_DIRECTORY" = some dir →
      env.readToString (joinPath dir "COAP_SERVICE_SECRET") = .ok contents →
      Provided env (trimEndMatches '\n' contents)
  | plain {secret : String} :
      NoCredential env → env.var "COAP_SERVICE_SECRET" = some secret →
      Provided env secret

/-- A strict variable that is set is what the configuration says. -/
structure Heeds (env : Environment) (config : Config) : Prop where
  secret : Provided env config.serviceSecret
  stack : ∀ raw, env.var "LOFT_DTLS_STACK" = some raw →
    raw = config.dtlsStack.name
  deadline : ∀ raw, env.var "LOFT_HANDSHAKE_DEADLINE_SECS" = some raw →
    ∃ n, parseU64 (trim raw.toList) = some n ∧
      config.handshakeDeadline = secs n
  block : ∀ raw, env.var "LOFT_UDP_MAX_BLOCK_BYTES" = some raw →
    parseU64 (trim raw.toList) = some (sizeFor config.udpMaxBlockSzx)

/-- What an error says of the variable it names is so. -/
inductive Refused (env : Environment) : ConfigError → Prop
  | unreadable {dir text : String} :
      env.var "CREDENTIALS_DIRECTORY" = some dir →
      env.readToString (joinPath dir "COAP_SERVICE_SECRET") =
        .error (.other text) →
      Refused env
        (.unreadableSecret (joinPath dir "COAP_SERVICE_SECRET") text)
  | unset :
      NoCredential env → env.var "COAP_SERVICE_SECRET" = none →
      Refused env .unsetSecret
  | empty {secret : String} :
      Provided env secret → isBlank secret = true → Refused env .emptySecret
  | stack {raw : String} :
      env.var "LOFT_DTLS_STACK" = some raw →
      (∀ stack : DtlsStack, raw ≠ stack.name) → Refused env (.dtlsStack raw)
  | deadline {raw : String} :
      env.var "LOFT_HANDSHAKE_DEADLINE_SECS" = some raw →
      (∀ n, 1 ≤ n → n ≤ maxHandshakeDeadlineSecs →
        parseU64 (trim raw.toList) ≠ some n) →
      Refused env (.handshakeDeadline raw)
  | block {raw : String} :
      env.var "LOFT_UDP_MAX_BLOCK_BYTES" = some raw →
      (∀ szx ≤ maxSzx, parseU64 (trim raw.toList) ≠ some (sizeFor szx)) →
      Refused env (.udpMaxBlock raw)

/-! Each variable by itself. -/

theorem parseDtlsStack_name (stack : DtlsStack) :
    parseDtlsStack (some stack.name) = .ok stack := by
  cases stack <;> simp [parseDtlsStack, DtlsStack.name]

theorem parseDtlsStack_ok {raw : String} {stack : DtlsStack}
    (h : parseDtlsStack (some raw) = .ok stack) : raw = stack.name := by
  simp only [parseDtlsStack] at h
  split_ifs at h with hopenssl hmbedtls
  · cases h
    exact hopenssl
  · cases h
    exact hmbedtls

theorem parseDtlsStack_error {value : Option String} {e : ConfigError}
    (h : parseDtlsStack value = .error e) :
    ∃ raw, value = some raw ∧ e = .dtlsStack raw ∧
      ∀ stack : DtlsStack, raw ≠ stack.name := by
  cases value with
  | none => cases h
  | some raw =>
      simp only [parseDtlsStack] at h
      split_ifs at h with hopenssl hmbedtls
      cases h
      refine ⟨raw, rfl, rfl, ?_⟩
      intro stack
      cases stack with
      | openssl => exact hopenssl
      | mbedtls => exact hmbedtls

theorem parseHandshakeDeadline_ok {value : Option String} {deadline : Nat}
    (h : parseHandshakeDeadline value = .ok deadline) :
    ∃ n, 1 ≤ n ∧ n ≤ maxHandshakeDeadlineSecs ∧ deadline = secs n ∧
      ∀ raw, value = some raw → parseU64 (trim raw.toList) = some n := by
  cases value with
  | none =>
      cases h
      exact ⟨_, by decide, by decide, rfl, nofun⟩
  | some raw =>
      simp only [parseHandshakeDeadline] at h
      split at h
      · rename_i n hparsed
        split_ifs at h with hrange
        cases h
        refine ⟨n, hrange.1, hrange.2, rfl, ?_⟩
        intro raw' hraw
        cases hraw
        exact hparsed
      · cases h

theorem parseHandshakeDeadline_error {value : Option String} {e : ConfigError}
    (h : parseHandshakeDeadline value = .error e) :
    ∃ raw, value = some raw ∧ e = .handshakeDeadline raw ∧
      ∀ n, 1 ≤ n → n ≤ maxHandshakeDeadlineSecs →
        parseU64 (trim raw.toList) ≠ some n := by
  cases value with
  | none => cases h
  | some raw =>
      simp only [parseHandshakeDeadline] at h
      split at h
      · rename_i n hparsed
        split_ifs at h with hrange
        cases h
        refine ⟨raw, rfl, rfl, ?_⟩
        intro n' hleast hmost hsame
        rw [hparsed] at hsame
        cases hsame
        exact hrange ⟨hleast, hmost⟩
      · rename_i hparsed
        cases h
        refine ⟨raw, rfl, rfl, ?_⟩
        intro n' _ _ hsame
        rw [hparsed] at hsame
        cases hsame

theorem szxForBytes_sizeFor {szx : UInt8} (hszx : szx ≤ maxSzx) :
    szxForBytes (sizeFor szx) = some szx := by
  have hlt : szx.toNat < 7 := Nat.lt_succ_of_le hszx
  have hall : ∀ n < 7, szxForBytes (sizeFor (UInt8.ofNat n)) =
      some (UInt8.ofNat n) := by
    decide
  have hthis := hall szx.toNat hlt
  rwa [UInt8.ofNat_toNat] at hthis

theorem szxForBytes_eq_some {bytes : Nat} {szx : UInt8}
    (h : szxForBytes bytes = some szx) : szx ≤ maxSzx ∧ bytes = sizeFor szx := by
  have hsize := List.find?_some h
  have hmem := List.mem_of_find?_eq_some h
  obtain ⟨n, hn, rfl⟩ := List.mem_map.mp hmem
  refine ⟨?_, (beq_iff_eq.mp hsize).symm⟩
  have hall : ∀ n ∈ List.range (maxSzx.toNat + 1), UInt8.ofNat n ≤ maxSzx := by
    decide
  exact hall n hn

theorem parseUdpMaxBlock_ok {value : Option String} {szx : UInt8}
    (h : parseUdpMaxBlock value = .ok szx) :
    szx ≤ maxSzx ∧ ∀ raw, value = some raw →
      parseU64 (trim raw.toList) = some (sizeFor szx) := by
  cases value with
  | none =>
      cases h
      exact ⟨by decide, nofun⟩
  | some raw =>
      simp only [parseUdpMaxBlock] at h
      split at h
      · rename_i szx' hparsed
        cases h
        obtain ⟨bytes, hbytes, hszx⟩ := Option.bind_eq_some_iff.mp hparsed
        obtain ⟨hle, rfl⟩ := szxForBytes_eq_some hszx
        refine ⟨hle, ?_⟩
        intro raw' hraw
        cases hraw
        exact hbytes
      · cases h

theorem parseUdpMaxBlock_error {value : Option String} {e : ConfigError}
    (h : parseUdpMaxBlock value = .error e) :
    ∃ raw, value = some raw ∧ e = .udpMaxBlock raw ∧
      ∀ szx ≤ maxSzx, parseU64 (trim raw.toList) ≠ some (sizeFor szx) := by
  cases value with
  | none => cases h
  | some raw =>
      simp only [parseUdpMaxBlock] at h
      split at h
      · cases h
      · rename_i hparsed
        cases h
        refine ⟨raw, rfl, rfl, ?_⟩
        intro szx hszx hsame
        rw [hsame, Option.bind_some, szxForBytes_sizeFor hszx] at hparsed
        cases hparsed

theorem resolveServiceSecret_none {env : Environment}
    (hnone : NoCredential env) :
    (∃ secret, Provided env secret ∧ resolveServiceSecret env none
      (env.var "COAP_SERVICE_SECRET") = .ok secret) ∨
    ∃ e, Refused env e ∧ resolveServiceSecret env none
      (env.var "COAP_SERVICE_SECRET") = .error e := by
  cases hvar : env.var "COAP_SERVICE_SECRET" with
  | some secret => exact .inl ⟨secret, .plain hnone hvar, rfl⟩
  | none => exact .inr ⟨_, .unset hnone hvar, rfl⟩

theorem resolveServiceSecret_cases (env : Environment) :
    (∃ secret, Provided env secret ∧
      resolveServiceSecret env (env.var "CREDENTIALS_DIRECTORY")
        (env.var "COAP_SERVICE_SECRET") = .ok secret) ∨
    ∃ e, Refused env e ∧
      resolveServiceSecret env (env.var "CREDENTIALS_DIRECTORY")
        (env.var "COAP_SERVICE_SECRET") = .error e := by
  cases hdir : env.var "CREDENTIALS_DIRECTORY" with
  | none =>
      apply resolveServiceSecret_none
      intro dir hsome
      rw [hdir] at hsome
      cases hsome
  | some dir =>
      cases hread : env.readToString (joinPath dir "COAP_SERVICE_SECRET") with
      | ok contents =>
          refine .inl ⟨_, .credential hdir hread, ?_⟩
          simp only [resolveServiceSecret, hread]
      | error error =>
          cases error with
          | other text =>
              refine .inr ⟨_, .unreadable hdir hread, ?_⟩
              simp only [resolveServiceSecret, hread]
          | notFound =>
              have hnone : NoCredential env := by
                intro dir' hsome
                rw [hdir, Option.some.injEq] at hsome
                rw [← hsome]
                exact hread
              have hsame (secret : Option String) :
                  resolveServiceSecret env (some dir) secret =
                    resolveServiceSecret env none secret := by
                simp only [resolveServiceSecret, hread]
              rw [hsame]
              exact resolveServiceSecret_none hnone

theorem parseDigits_lt {text : List Char} {acc n : Nat} (hacc : acc < 2 ^ 64)
    (h : parseDigits text acc = some n) : n < 2 ^ 64 := by
  induction text generalizing acc with
  | nil =>
      cases h
      exact hacc
  | cons c rest ih =>
      rw [parseDigits] at h
      split_ifs at h with hdigit
      dsimp only at h
      split_ifs at h with hfits
      exact ih hfits h

theorem parseU64_lt {text : List Char} {n : Nat} (h : parseU64 text = some n) :
    n < 2 ^ 64 := by
  unfold parseU64 at h
  split at h
  · cases h
  · cases h
  · exact parseDigits_lt (by decide) h
  · exact parseDigits_lt (by decide) h

theorem secsOr_whole (env : Environment) (key : String) {default : Nat}
    (hdefault : ∃ n < 2 ^ 64, default = secs n) :
    ∃ n < 2 ^ 64, env.secsOr key default = secs n := by
  unfold Environment.secsOr
  cases hparsed : (env.var key).bind fun value => parseU64 value.toList with
  | none => exact hdefault
  | some n =>
      obtain ⟨value, -, hvalue⟩ := Option.bind_eq_some_iff.mp hparsed
      exact ⟨n, parseU64_lt hvalue, rfl⟩

theorem trimEndSlashes_idem (text : String) :
    trimEndSlashes (trimEndSlashes text) = trimEndSlashes text := by
  simp only [trimEndSlashes, String.toList_ofList, List.reverse_reverse,
    List.dropWhile_idempotent]

/-! All of them together. -/

theorem withEnv_wellFormed {env : Environment} {secret : String}
    {stack : DtlsStack} {deadline : Nat} {szx : UInt8}
    (hblank : isBlank secret = false)
    (hdeadline : ∃ n, 1 ≤ n ∧ n ≤ maxHandshakeDeadlineSecs ∧
      deadline = secs n)
    (hszx : szx ≤ maxSzx) :
    (withEnv env secret stack deadline szx).WellFormed where
  secret := hblank
  url := trimEndSlashes_idem _
  ttl := secsOr_whole env _ ⟨60, by decide, rfl⟩
  canary addr haddr := by
    obtain ⟨-, hkept⟩ := Option.filter_eq_some_iff.mp haddr
    exact Bool.not_eq_true' _ |>.mp hkept
  idle := secsOr_whole env _ ⟨21600, by decide, rfl⟩
  deadline := hdeadline
  block := hszx

theorem fromEnv_eq_ok {env : Environment} {secret : String}
    {stack : DtlsStack} {deadline : Nat} {szx : UInt8}
    (hsecret : resolveServiceSecret env (env.var "CREDENTIALS_DIRECTORY")
      (env.var "COAP_SERVICE_SECRET") = .ok secret)
    (hblank : isBlank secret = false)
    (hstack : parseDtlsStack (env.var "LOFT_DTLS_STACK") = .ok stack)
    (hdeadline : parseHandshakeDeadline
      (env.var "LOFT_HANDSHAKE_DEADLINE_SECS") = .ok deadline)
    (hblock : parseUdpMaxBlock (env.var "LOFT_UDP_MAX_BLOCK_BYTES") =
      .ok szx) :
    fromEnv env = .ok (withEnv env secret stack deadline szx) := by
  simp [fromEnv, hsecret, hblank, hstack, hdeadline, hblock, bind, Except.bind,
    pure, Except.pure]

theorem fromEnv_cases (env : Environment) :
    (∃ config, fromEnv env = .ok config ∧ config.WellFormed ∧
      Heeds env config) ∨
    ∃ e, fromEnv env = .error e ∧ Refused env e := by
  rcases resolveServiceSecret_cases env with
    ⟨secret, hprovided, hsecret⟩ | ⟨e, hrefused, hsecret⟩
  · cases hblank : isBlank secret with
    | true =>
        refine .inr ⟨.emptySecret, ?_, .empty hprovided hblank⟩
        simp [fromEnv, hsecret, hblank, bind, Except.bind, throw, throwThe,
          MonadExceptOf.throw]
    | false =>
        cases hstack : parseDtlsStack (env.var "LOFT_DTLS_STACK") with
        | error e =>
            obtain ⟨raw, hraw, rfl, hnot⟩ := parseDtlsStack_error hstack
            refine .inr ⟨.dtlsStack raw, ?_, .stack hraw hnot⟩
            simp [fromEnv, hsecret, hblank, hstack, bind, Except.bind]
        | ok stack =>
            cases hdeadline : parseHandshakeDeadline
                (env.var "LOFT_HANDSHAKE_DEADLINE_SECS") with
            | error e =>
                obtain ⟨raw, hraw, rfl, hnot⟩ :=
                  parseHandshakeDeadline_error hdeadline
                refine .inr ⟨.handshakeDeadline raw, ?_, .deadline hraw hnot⟩
                simp [fromEnv, hsecret, hblank, hstack, hdeadline, bind,
                  Except.bind]
            | ok deadline =>
                cases hblock : parseUdpMaxBlock
                    (env.var "LOFT_UDP_MAX_BLOCK_BYTES") with
                | error e =>
                    obtain ⟨raw, hraw, rfl, hnot⟩ :=
                      parseUdpMaxBlock_error hblock
                    refine .inr ⟨.udpMaxBlock raw, ?_, .block hraw hnot⟩
                    simp [fromEnv, hsecret, hblank, hstack, hdeadline, hblock,
                      bind, Except.bind]
                | ok szx =>
                    obtain ⟨n, hleast, hmost, rfl, hsame⟩ :=
                      parseHandshakeDeadline_ok hdeadline
                    obtain ⟨hszx, hbytes⟩ := parseUdpMaxBlock_ok hblock
                    refine .inl ⟨withEnv env secret stack (secs n) szx,
                      fromEnv_eq_ok hsecret hblank hstack hdeadline hblock,
                      withEnv_wellFormed hblank ⟨n, hleast, hmost, rfl⟩ hszx,
                      hprovided, ?_, ?_, hbytes⟩
                    · intro raw hraw
                      rw [hraw] at hstack
                      exact parseDtlsStack_ok hstack
                    · exact fun raw hraw => ⟨n, hsame raw hraw, rfl⟩
  · refine .inr ⟨e, ?_, hrefused⟩
    simp [fromEnv, hsecret, bind, Except.bind]

/-! The environment that a configuration can be read back from. -/

def environment (config : Config) : Environment where
  var key :=
    if key = "COAP_SERVICE_SECRET" then some config.serviceSecret
    else if key = "LOFT_UDP_LISTEN" then some config.udpListen
    else if key = "LOFT_TCP_LISTEN" then some config.tcpListen
    else if key = "LOFT_DOVECOTE_URL" then some config.dovecoteUrl
    else if key = "LOFT_PSK_TTL_SECS" then
      some (String.ofList (digits (config.pskCacheTtl / secs 1)))
    else if key = "LOFT_DTLS_STACK" then some config.dtlsStack.name
    else if key = "LOFT_DTLS_MBED_CANARY_ADDR" then config.dtlsMbedCanaryAddr
    else if key = "LOFT_DTLS_CID_IDLE_SECS" then
      some (String.ofList (digits (config.dtlsCidIdle / secs 1)))
    else if key = "LOFT_HANDSHAKE_DEADLINE_SECS" then
      some (String.ofList (digits (config.handshakeDeadline / secs 1)))
    else if key = "LOFT_UDP_MAX_BLOCK_BYTES" then
      some (String.ofList (digits (sizeFor config.udpMaxBlockSzx)))
    else none
  readToString _ := .error .notFound

theorem secs_div (n : Nat) : secs n / secs 1 = n := by
  simp [secs]

theorem WellFormed.secsOr {config : Config} {key : String} {default n : Nat}
    {duration : Nat} (hn : n < 2 ^ 64) (hduration : duration = secs n)
    (hvar : config.environment.var key =
      some (String.ofList (digits (duration / secs 1)))) :
    config.environment.secsOr key default = duration := by
  rw [Environment.secsOr, hvar, hduration, secs_div, Option.bind_some,
    String.toList_ofList, parseU64_digits hn]
  rfl

theorem sizeFor_lt {szx : UInt8} (hszx : szx ≤ maxSzx) :
    sizeFor szx < 2 ^ 64 := by
  have hle : szx.toNat ≤ 6 := hszx
  rw [sizeFor, Nat.one_shiftLeft]
  exact Nat.pow_lt_pow_right (by decide) (by omega)

/-- Nothing of a well-formed configuration is lost on the way. -/
theorem WellFormed.fromEnv_environment {config : Config}
    (hconfig : config.WellFormed) :
    fromEnv config.environment = .ok config := by
  obtain ⟨ttl, httl, hpsk⟩ := hconfig.ttl
  obtain ⟨idle, hidle, hcid⟩ := hconfig.idle
  obtain ⟨n, hleast, hmost, hdeadline⟩ := hconfig.deadline
  have hsecret : resolveServiceSecret config.environment
      (config.environment.var "CREDENTIALS_DIRECTORY")
      (config.environment.var "COAP_SERVICE_SECRET") =
        .ok config.serviceSecret := by
    simp [environment, resolveServiceSecret]
  have hstack : parseDtlsStack (config.environment.var "LOFT_DTLS_STACK") =
      .ok config.dtlsStack := by
    simpa [environment] using parseDtlsStack_name config.dtlsStack
  have hparsed : parseHandshakeDeadline
      (config.environment.var "LOFT_HANDSHAKE_DEADLINE_SECS") =
        .ok config.handshakeDeadline := by
    have hvar : config.environment.var "LOFT_HANDSHAKE_DEADLINE_SECS" =
        some (String.ofList (digits n)) := by
      simp [environment, hdeadline, secs_div]
    have hlt : n < 2 ^ 64 := by
      unfold maxHandshakeDeadlineSecs at hmost
      omega
    rw [hvar, parseHandshakeDeadline, String.toList_ofList, trim_digits,
      parseU64_digits hlt, hdeadline]
    exact if_pos ⟨hleast, hmost⟩
  have hblock : parseUdpMaxBlock
      (config.environment.var "LOFT_UDP_MAX_BLOCK_BYTES") =
        .ok config.udpMaxBlockSzx := by
    have hvar : config.environment.var "LOFT_UDP_MAX_BLOCK_BYTES" =
        some (String.ofList (digits (sizeFor config.udpMaxBlockSzx))) := by
      simp [environment]
    rw [hvar, parseUdpMaxBlock, String.toList_ofList, trim_digits,
      parseU64_digits (sizeFor_lt hconfig.block), Option.bind_some,
      szxForBytes_sizeFor hconfig.block]
  have httlRead : config.environment.secsOr "LOFT_PSK_TTL_SECS"
      Psk.defaultPositiveTtl = config.pskCacheTtl :=
    WellFormed.secsOr httl hpsk (by simp [environment])
  have hidleRead : config.environment.secsOr "LOFT_DTLS_CID_IDLE_SECS"
      defaultCidIdle = config.dtlsCidIdle :=
    WellFormed.secsOr hidle hcid (by simp [environment])
  have hcanary : (config.environment.var "LOFT_DTLS_MBED_CANARY_ADDR").filter
      (!isBlank ·) = config.dtlsMbedCanaryAddr := by
    have hvar : config.environment.var "LOFT_DTLS_MBED_CANARY_ADDR" =
        config.dtlsMbedCanaryAddr := by
      simp [environment]
    rw [hvar]
    cases haddr : config.dtlsMbedCanaryAddr with
    | none => rfl
    | some addr => simp [hconfig.canary addr haddr]
  have hfields : withEnv config.environment config.serviceSecret
      config.dtlsStack config.handshakeDeadline config.udpMaxBlockSzx =
        config := by
    rw [withEnv, httlRead, hidleRead, hcanary]
    simp [environment, Environment.envOr, hconfig.url]
  have hread := fromEnv_eq_ok hsecret hconfig.secret hstack hparsed hblock
  rwa [hfields] at hread

/-- What is accepted is exactly what is well formed, it says what the strict
variables say, and what is refused is refused for a reason. -/
theorem fromEnv_exact (config : Config) (env : Environment) :
    ((∃ env, fromEnv env = .ok config) ↔ config.WellFormed) ∧
      (fromEnv env = .ok config → Heeds env config) ∧
      ∀ e, fromEnv env = .error e → Refused env e := by
  refine ⟨⟨?_, ?_⟩, ?_, ?_⟩
  · intro hboth
    obtain ⟨env, haccepted⟩ := hboth
    rcases fromEnv_cases env with ⟨config', hok, hformed, -⟩ | ⟨e, herror, -⟩
    · rw [haccepted] at hok
      cases hok
      exact hformed
    · rw [haccepted] at herror
      cases herror
  · exact fun hformed => ⟨config.environment, hformed.fromEnv_environment⟩
  · intro haccepted
    rcases fromEnv_cases env with ⟨config', hok, -, hheeds⟩ | ⟨e, herror, -⟩
    · rw [haccepted] at hok
      cases hok
      exact hheeds
    · rw [haccepted] at herror
      cases herror
  · intro e hrefused
    rcases fromEnv_cases env with ⟨config', hok, -⟩ | ⟨e', herror, hreason⟩
    · rw [hrefused] at hok
      cases hok
    · rw [hrefused] at herror
      cases herror
      exact hreason

end Config

end Loft
