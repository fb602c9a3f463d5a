import Stratus.Backend.Confirmations
import Stratus.Backend.InstalledGames
import Stratus.Lib.Base64

/-! The hash of the certificate on its way from `Certs.cpp` through the backend to `transport.ts`:
the browser compares the certificate of the node with the hash that the node has computed. -/
namespace Stratus.Transport.Fingerprint

open Stratus.Lib Stratus.Lib.Base64 Stratus.Backend

abbrev Bytes := List UInt8

/-! ## `Certs.cpp` -/

def table64 : List Char := "ABCDEFGHIJKLMNOPQRSTUVWXYZabcdefghijklmnopqrstuvwxyz0123456789+/".toList

/-- A string ends with a null character. -/
def table64At (i : Nat) : Char := table64.getD i '\x00'

def padbyte : Char := '='

/-- `base64_encode`. -/
def base64Encode : Bytes → List Char
  | a :: b :: c :: rest =>
      table64At (a.toNat >>> 2) ::
        table64At (((a.toNat &&& 0x03) <<< 4) ||| (b.toNat >>> 4)) ::
        table64At (((b.toNat &&& 0x0F) <<< 2) ||| ((c.toNat &&& 0xC0) >>> 6)) ::
        table64At (c.toNat &&& 0x3F) :: base64Encode rest
  | [] => []
  | [a] => [table64At (a.toNat >>> 2), table64At ((a.toNat &&& 0x03) <<< 4), padbyte, padbyte]
  | [a, b] =>
      [table64At (a.toNat >>> 2), table64At (((a.toNat &&& 0x03) <<< 4) ||| ((b.toNat &&& 0xF0) >>> 4)),
        table64At ((b.toNat &&& 0x0F) <<< 2), padbyte]

/-- `FINGERPRINT_LEN`. -/
def fingerprintLen : Nat := 45

/-! ## `transport.ts` -/

/-- What `atob` leaves out. -/
def isAsciiWhitespace (c : Char) : Bool :=
  c.toNat = 9 || c.toNat = 10 || c.toNat = 12 || c.toNat = 13 || c.toNat = 32

theorem idxOf_table64At : ∀ d, d < 64 → table64.idxOf? (table64At d) = some d := by decide

/-- The base 64 of both sides. -/
def standard : Alphabet where
  char := table64At
  digit := table64.idxOf?
  pad := padbyte
  digit_char := idxOf_table64At
  digit_pad := by decide

def atob (text : List Char) : Option Bytes := standard.decode isAsciiWhitespace text

/-- What is given to the browser, or an error. -/
inductive CertificateHashes where
  | undefined
  | sha256 (value : Bytes)
  | invalid
deriving DecidableEq

/-- The beginning of `handleConnecting`. -/
def serverCertificateHashes (tlsFingerprint : List Char) : CertificateHashes :=
  let trimmedHash := Manifest.trim tlsFingerprint
  if trimmedHash = [] then .undefined
  else
    match atob trimmedHash with
    | none => .invalid
    | some value => .sha256 value

/-! ## The text and the hash -/

theorem mask_two (n : Nat) : n &&& 0x03 = n % 4 := Nat.and_two_pow_sub_one_eq_mod n 2

theorem mask_four (n : Nat) : n &&& 0x0F = n % 16 := Nat.and_two_pow_sub_one_eq_mod n 4

theorem mask_six (n : Nat) : n &&& 0x3F = n % 64 := Nat.and_two_pow_sub_one_eq_mod n 6

theorem high_two (c : UInt8) : (c.toNat &&& 0xC0) >>> 6 = c.toNat / 64 := by
  have hc := c.toNat_lt
  have hmask : (0xC0 : Nat) >>> 6 = 0x03 := rfl
  rw [Nat.shiftRight_and_distrib, hmask, mask_two, Nat.shiftRight_eq_div_pow]
  omega

theorem high_four (b : UInt8) : (b.toNat &&& 0xF0) >>> 4 = b.toNat / 16 := by
  have hb := b.toNat_lt
  have hmask : (0xF0 : Nat) >>> 4 = 0x0F := rfl
  rw [Nat.shiftRight_and_distrib, hmask, mask_four, Nat.shiftRight_eq_div_pow]
  omega

/-- Both parts of a digit. -/
theorem join (x : Nat) {y i : Nat} (hy : y < 2 ^ i) : (x <<< i) ||| y = x * 2 ^ i + y := by
  rw [← Nat.shiftLeft_add_eq_or_of_lt hy, Nat.shiftLeft_eq]

theorem base64Encode_eq (data : Bytes) : base64Encode data = standard.encode data := by
  have hshift : ∀ n i : Nat, n >>> i = n / 2 ^ i := Nat.shiftRight_eq_div_pow
  induction data using digits.induct with
  | case1 => rfl
  | case2 a =>
      rw [base64Encode, mask_two, Nat.shiftLeft_eq, hshift]
      rfl
  | case3 a b =>
      have hb := b.toNat_lt
      rw [base64Encode, mask_two, mask_four, high_four, join _ (by omega), Nat.shiftLeft_eq, hshift]
      rfl
  | case4 a b c rest ih =>
      have hb := b.toNat_lt
      have hc := c.toNat_lt
      have hmissing : missing (a :: b :: c :: rest) = missing rest := by
        simp only [missing, List.length_cons]
        omega
      rw [base64Encode, ih, mask_two, mask_four, mask_six, high_two, hshift, hshift, join _ (by omega),
        join _ (by omega), Alphabet.encode, Alphabet.encode, hmissing, digits]
      rfl

theorem length_base64Encode (data : Bytes) : (base64Encode data).length = 4 * ((data.length + 2) / 3) := by
  rw [base64Encode_eq, Alphabet.length_encode]

/-- The hash and its null character fill `der_hash`. -/
theorem length_derHash {hash : Bytes} (h : hash.length = 32) :
    (base64Encode hash).length + 1 = fingerprintLen := by
  rw [length_base64Encode, h]
  rfl

/-- A digit is a printed character. -/
theorem printed_table64At {d : Nat} (hd : d < 64) : 32 < (table64At d).toNat ∧ (table64At d).toNat < 127 := by
  have hall : table64.all (fun c => 32 < c.toNat && c.toNat < 127) = true := by rfl
  have hlt : d < table64.length := hd
  rw [table64At, List.getD_eq_getElem?_getD, List.getElem?_eq_getElem hlt]
  have hprinted := List.all_eq_true.mp hall _ (List.getElem_mem hlt)
  rwa [Bool.and_eq_true, decide_eq_true_eq, decide_eq_true_eq] at hprinted

theorem not_ascii_whitespace {c : Char} (h : 32 < c.toNat ∧ c.toNat < 127) : isAsciiWhitespace c = false := by
  simp only [isAsciiWhitespace, Bool.or_eq_false_iff, decide_eq_false_iff_not]
  omega

theorem not_space {c : Char} (h : 32 < c.toNat ∧ c.toNat < 127) : Manifest.isSpace c = false := by
  simp only [Manifest.isSpace, Bool.or_eq_false_iff, Bool.and_eq_false_iff, decide_eq_false_iff_not]
  omega

theorem atob_base64Encode (data : Bytes) : atob (base64Encode data) = some data := by
  rw [base64Encode_eq]
  exact standard.decode_encode (fun d hd => not_ascii_whitespace (printed_table64At hd)) (by decide) data

theorem not_space_base64Encode (data : Bytes) : ∀ c ∈ base64Encode data, Manifest.isSpace c = false := by
  rw [base64Encode_eq]
  intro c hc
  rcases List.mem_append.mp hc with hdigit | hpads
  · obtain ⟨d, hd, rfl⟩ := List.mem_map.mp hdigit
    exact not_space (printed_table64At (digits_lt data d hd))
  · rw [List.eq_of_mem_replicate hpads]
    decide

theorem trim_of_not_space {text : List Char} (h : ∀ c ∈ text, Manifest.isSpace c = false) :
    Manifest.trim text = text := by
  have hdrop : ∀ l : List Char, (∀ c ∈ l, Manifest.isSpace c = false) → l.dropWhile Manifest.isSpace = l := by
    intro l hl
    cases l with
    | nil => rfl
    | cons c l => exact List.dropWhile_cons_of_neg (by rw [hl c List.mem_cons_self]; exact Bool.false_ne_true)
  rw [Manifest.trim, hdrop text h, hdrop text.reverse fun c hc => h c (List.mem_reverse.mp hc),
    List.reverse_reverse]

/-- The browser is given the hash. -/
theorem serverCertificateHashes_base64Encode {hash : Bytes} (hne : hash ≠ []) :
    serverCertificateHashes (base64Encode hash) = .sha256 hash := by
  have htext : base64Encode hash ≠ [] := by
    intro hnil
    have hlength := length_base64Encode hash
    have hpos := List.length_pos_iff.mpr hne
    rw [hnil, List.length_nil] at hlength
    omega
  rw [serverCertificateHashes, trim_of_not_space (not_space_base64Encode hash), if_neg htext,
    atob_base64Encode]

/-! ## Through the backend -/

/-- The hash of the certificate that a node has made for a session. -/
abbrev Certificates := Socket → String → Bytes

def fingerprint (hash : Bytes) : Json := .str (String.ofList (base64Encode hash))

/-- A node confirms a session with its certificate for it. -/
def Certified (certificates : Certificates) (b : Broker) (event : Broker.Event) : Prop :=
  ∀ ws confirm sessionId, b.effect event = .confirm ws confirm → confirm.sessionId = .str sessionId →
    confirm.tlsFingerprint = fingerprint (certificates ws sessionId)

/-- Every answer has the fingerprint of the node that the start has been sent to. -/
def RightCertificate (certificates : Certificates) (b : Broker) : Prop :=
  ∀ start ∈ b.starts, ∀ sessionId tlsFingerprint ip,
    Broker.answer start = some (.created sessionId tlsFingerprint ip) →
    tlsFingerprint = fingerprint (certificates start.socket start.message.sessionId)

theorem rightCertificate_apply {certificates : Certificates} {b : Broker} (h : Broker.Sound b)
    {event : Broker.Event} (hright : RightCertificate certificates b) (hnode : b.FromNode event)
    (hcertified : Certified certificates b event) : RightCertificate certificates (b.apply event) := by
  intro start' hmem sessionId tlsFingerprint ip hanswer
  obtain ⟨i, hi⟩ := List.getElem?_of_mem hmem
  rcases Broker.starts_apply h hi with ⟨start, hold, hsame, ⟨hresults, _⟩ | hresults⟩ |
    ⟨ws, confirm, start, heffect, hold, hsame, hopen, hmatch, hresults⟩ |
    ⟨_, _, _, _, _, _, _, rfl, _⟩
  · rw [Broker.answer, hresults] at hanswer
    rw [hsame.socket, hsame.message]
    exact hright start (List.mem_of_getElem? hold) sessionId tlsFingerprint ip hanswer
  · rw [Broker.answer, hresults] at hanswer
    cases hanswer
  · rw [Broker.answer, hresults] at hanswer
    cases hanswer
    obtain ⟨hsession, hws, -⟩ := hnode ws confirm _ i start heffect hmatch
      (h.pending.mpr ⟨start, hold, rfl, hopen⟩) hold
    rw [hsame.socket, hsame.message, ← hws]
    exact hcertified ws confirm _ heffect hsession
  · cases hanswer

/-- The browser of the client that has asked for a session compares the certificate of the node
with the hash which that node has computed for this session. -/
theorem browser_checks_node {certificates : Certificates} (hlength : ∀ ws id, (certificates ws id).length = 32)
    {trace : List Broker.Event} {b : Broker}
    (hrun : (Broker.system fun b event => b.FromNode event ∧ Certified certificates b event).Run trace b)
    {start : Start} (hstart : start ∈ b.starts) {sessionId tlsFingerprint : Json} {ip : Option Json}
    (hanswer : Broker.answer start = some (.created sessionId tlsFingerprint ip)) :
    ∃ text, tlsFingerprint = .str text ∧ text.length + 1 = fingerprintLen ∧
      serverCertificateHashes text.toList = .sha256 (certificates start.socket start.message.sessionId) := by
  have hright : RightCertificate certificates b := by
    refine (hrun.invariant (fun _ b => Broker.Sound b ∧ RightCertificate certificates b) ?_ ?_).2
    · rintro _ ⟨now, rfl⟩
      exact ⟨.start now, fun start hmem => absurd hmem List.not_mem_nil⟩
    · rintro trace b event _ ⟨h, hright⟩ ⟨henabled, ⟨hnode, hcertified⟩, rfl⟩
      exact ⟨h.apply henabled, rightCertificate_apply h hright hnode hcertified⟩
  have hne : certificates start.socket start.message.sessionId ≠ [] := by
    intro hnil
    have hzero := hlength start.socket start.message.sessionId
    rw [hnil] at hzero
    cases hzero
  refine ⟨_, hright start hstart sessionId tlsFingerprint ip hanswer, ?_, ?_⟩
  · rw [String.length_ofList]
    exact length_derHash (hlength _ _)
  · rw [String.toList_ofList]
    exact serverCertificateHashes_base64Encode hne

/-- A start that is confirmed with the fingerprint of its node. -/
def certifiedStart : List Broker.Event :=
  Broker.twoStarts ++
    [.message 2 1 (confirmMessage "" "s1" (String.ofList (base64Encode (List.replicate 32 7))))]

theorem browser_checks_node_certifiedStart :
    ∃ start ∈ (certifiedStart.foldl Broker.apply (.init 0)).starts,
      ∃ text, Broker.answer start = some (.created (.str "s1") (.str text) (some (.str "10.0.0.1"))) ∧
      serverCertificateHashes text.toList = .sha256 (List.replicate 32 7) := by
  have hfollows : Broker.Follows
      (fun b event => b.FromNode event ∧ Certified (fun _ _ => List.replicate 32 7) b event) (.init 0)
      certifiedStart := by
    refine ⟨trivial, ⟨nofun, nofun⟩, trivial, ⟨nofun, nofun⟩, by decide, ⟨nofun, nofun⟩, by decide,
      ⟨nofun, nofun⟩, trivial, ⟨?_, ?_⟩, trivial⟩
    · rintro ws confirm requestId i start ⟨⟩ ⟨⟩ ⟨⟩ ⟨⟩
      exact ⟨rfl, rfl, by decide⟩
    · rintro ws confirm sessionId ⟨⟩ ⟨⟩
      rfl
  have hget : ∃ start : Start, (certifiedStart.foldl Broker.apply (.init 0)).starts[0]? = some start ∧
      Broker.answer start = some (.created (.str "s1")
        (.str (String.ofList (base64Encode (List.replicate 32 7)))) (some (.str "10.0.0.1"))) :=
    ⟨_, rfl, rfl⟩
  obtain ⟨start, hstart, hanswer⟩ := hget
  have hmem := List.mem_of_getElem? hstart
  obtain ⟨text, htext, -, hhash⟩ :=
    browser_checks_node (fun _ _ => rfl) (Broker.run_init hfollows) hmem hanswer
  cases htext
  exact ⟨start, hmem, _, hanswer, hhash⟩

end Stratus.Transport.Fingerprint
