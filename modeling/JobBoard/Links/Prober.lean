import JobBoard.Auth.Totp
import JobBoard.Lib.IpAddress

/-!
# The link prober

`HttpLinkProberAdapter`: the guard against requests to internal hosts, and the probe. The
parser of URLs, the name server and the network are a parameter. The guard classifies the
text of an address. It blocks the internal addresses but for the IPv4-mapped ones, whose
embedded address a URL shows in hexadecimal.
-/

set_option autoImplicit false

namespace JobBoard.Links

open Net

/-! ## The adapter -/

inductive Method where
  | head | get
  deriving DecidableEq, Repr

inductive FetchError where
  | abort | network
  deriving DecidableEq, Repr

/-- The parts of a parsed URL that the adapter reads. -/
structure Url where
  protocol : String
  hostname : Text
  deriving DecidableEq, Repr

structure LinkProbeResult where
  reachable : Bool
  statusCode : Option Nat
  reason : Option String
  deriving DecidableEq, Repr

/-- `new URL`, `dns.lookup` with all records, and the status of a `fetch`. -/
structure Network where
  parse : String → Option Url
  lookup : Text → Except String (List Text)
  fetch : Method → Url → Except FetchError Nat

namespace HttpLinkProberAdapter

def isPrivateIpv4 (address : Text) : Bool :=
  match (address.splitOn '.').map fun p => Auth.parseInt (String.ofList p) with
  | [some a, some b, some _, some _] =>
    a = 10 || a = 127 || a = 0 || (a = 169 && b = 254) || (a = 172 && b ≥ 16 && b ≤ 31) ||
      (a = 192 && b = 168) || (a = 100 && b ≥ 64 && b ≤ 127) || (a = 192 && b = 0) || a ≥ 224
  | _ => true

/-- `lower.slice(lower.lastIndexOf(':') + 1)`. -/
def afterLastColon (s : Text) : Text := s.rtakeWhile (· ≠ ':')

def extractMappedIpv4 (address : Text) : Option Text :=
  let lower := address.map Char.toLower
  let tail := afterLastColon lower
  if ("::ffff:".toList.isPrefixOf lower || "::".toList.isPrefixOf lower) && isIPv4 tail then
    some tail
  else none

def isPrivateIpv6 (address : Text) : Bool :=
  let a := address.map Char.toLower
  a = "::1".toList || a = "::".toList || "fe8".toList.isPrefixOf a || "fe9".toList.isPrefixOf a ||
    "fea".toList.isPrefixOf a || "feb".toList.isPrefixOf a || "fc".toList.isPrefixOf a ||
    "fd".toList.isPrefixOf a || "ff".toList.isPrefixOf a

def assertPublicAddress (address : Text) : Except String Unit :=
  if isIPv4 address then
    if isPrivateIpv4 address then .error ("private_ipv4:" ++ String.ofList address) else .ok ()
  else
    match extractMappedIpv4 address with
    | some mapped =>
      if isPrivateIpv4 mapped then .error ("private_mapped_ipv4:" ++ String.ofList mapped)
      else .ok ()
    | none =>
      if isPrivateIpv6 address then .error ("private_ipv6:" ++ String.ofList address) else .ok ()

/-- The host without the brackets of an IPv6 address. -/
def hostOf (hostname : Text) : Text :=
  if ['['].isPrefixOf hostname && [']'].isSuffixOf hostname then (hostname.drop 1).dropLast
  else hostname

def assertPublicHost (lookup : Text → Except String (List Text)) (hostname : Text) :
    Except String Unit := do
  let host := hostOf hostname
  if isIP host ≠ 0 then assertPublicAddress host
  else
    let records ← lookup host
    if records = [] then throw "no_dns_records"
    records.forM assertPublicAddress

/-- HEAD, and GET for an origin that refuses it; the second component is what was fetched. -/
def request (network : Network) (url : Url) : LinkProbeResult × List Method :=
  let answer (response : Except FetchError Nat) : LinkProbeResult :=
    match response with
    | .error .abort => ⟨false, none, some "timeout"⟩
    | .error .network => ⟨false, none, some "network_error"⟩
    | .ok status =>
      ⟨status < 500, some status, if status < 500 then none else some "server_error"⟩
  let response := network.fetch .head url
  if response.toOption = some 405 ∨ response.toOption = some 501 then
    (answer (network.fetch .get url), [.head, .get])
  else (answer response, [.head])

def probe (network : Network) (url : String) : LinkProbeResult × List Method :=
  match network.parse url with
  | none => (⟨false, none, some "invalid_url"⟩, [])
  | some parsed =>
    if parsed.protocol ≠ "http:" ∧ parsed.protocol ≠ "https:" then
      (⟨false, none, some "unsupported_scheme"⟩, [])
    else
      match assertPublicHost network.lookup parsed.hostname with
      | .error _ => (⟨false, none, some "blocked_host"⟩, [])
      | .ok _ => request network parsed

end HttpLinkProberAdapter

/-! ## Addresses as hosts -/

inductive Address where
  | v4 (v : Ipv4)
  | v6 (w : Ipv6)
  deriving DecidableEq, Repr

namespace Address

def text : Address → Text
  | v4 v => v.text
  | v6 w => w.text

/-- The host of a URL: an IPv6 address stands in brackets. -/
def hostname : Address → Text
  | v4 v => v.text
  | v6 w => '[' :: w.text ++ [']']

def Internal : Address → Prop
  | v4 v => v.Internal
  | v6 w => w.Internal

end Address

section

open HttpLinkProberAdapter

theorem parseInt_octetText : ∀ n : Fin 256,
    Auth.parseInt (String.ofList (octetText n)) = some (n : Int) := by decide +kernel

theorem octetText_head : ∀ n : Fin 256, (octetText n).head? ≠ some '[' ∧ octetText n ≠ [] := by
  decide +kernel

theorem hostOf_hostname (a : Address) : hostOf a.hostname = a.text := by
  cases a with
  | v4 v =>
    have hopen : ['['].isPrefixOf v.text = false := by
      obtain ⟨rest, hrest⟩ := v.text_head
      obtain ⟨c, cs, hcs⟩ := List.exists_cons_of_ne_nil (octetText_head v.a).2
      have hne := (octetText_head v.a).1
      rw [hcs, List.head?_cons] at hne
      rw [hrest, hcs]
      show ('[' == c && true) = false
      rw [Bool.and_true, beq_eq_false_iff_ne]
      rintro rfl
      exact hne rfl
    simp only [hostOf, Address.hostname, Address.text, hopen, Bool.false_and, Bool.false_eq_true,
      if_false]
  | v6 w =>
    have hopen : ['['].isPrefixOf ('[' :: (w.text ++ [']'])) = true := by simp [List.isPrefixOf]
    have hclose : [']'].isSuffixOf ('[' :: (w.text ++ [']'])) = true := by
      rw [List.isSuffixOf_iff_suffix, ← List.cons_append]
      exact List.suffix_append _ _
    simp only [hostOf, Address.hostname, Address.text, List.cons_append, hopen, hclose,
      Bool.and_self, if_true, List.drop_succ_cons, List.drop_zero, List.dropLast_concat]

/-- An address is not looked up. -/
theorem assertPublicHost_hostname (lookup : Text → Except String (List Text)) (a : Address) :
    assertPublicHost lookup a.hostname = assertPublicAddress a.text := by
  have hip : isIP a.text ≠ 0 := by
    cases a with
    | v4 v =>
      rw [Address.text, v.isIP_text]
      decide
    | v6 w =>
      rw [Address.text, w.isIP_text]
      decide
  simp only [assertPublicHost, hostOf_hostname, ne_eq, hip, not_false_eq_true, if_true]

/-! ## IPv4 -/

theorem isPrivateIpv4_of_internal {v : Ipv4} (h : v.Internal) : isPrivateIpv4 v.text = true := by
  have hparts : (v.text.splitOn '.').map (fun p => Auth.parseInt (String.ofList p)) =
      [some (v.a : Int), some (v.b : Int), some (v.c : Int), some (v.d : Int)] := by
    simp only [v.splitOn_text, Ipv4.octets, List.map_cons, List.map_nil, parseInt_octetText]
  simp only [isPrivateIpv4, hparts, Bool.or_eq_true, Bool.and_eq_true, decide_eq_true_eq]
  have hrange : v.a.val = 127 ∨ (v.a.val = 10 ∨ (v.a.val = 172 ∧ 16 ≤ v.b.val ∧ v.b.val ≤ 31) ∨
      (v.a.val = 192 ∧ v.b.val = 168)) ∨ (v.a.val = 169 ∧ v.b.val = 254) ∨
      (v.a.val = 100 ∧ 64 ≤ v.b.val ∧ v.b.val ≤ 127) ∨ 224 ≤ v.a.val ∨ v.a.val = 0 := by
    rcases h with h | h | h | h | h | h
    · exact .inl (congrArg Fin.val h)
    · refine .inr (.inl ?_)
      rcases h with h | ⟨h, hlo, hhi⟩ | ⟨h, h'⟩
      · exact .inl (congrArg Fin.val h)
      · exact .inr (.inl ⟨congrArg Fin.val h, hlo, hhi⟩)
      · exact .inr (.inr ⟨congrArg Fin.val h, congrArg Fin.val h'⟩)
    · exact .inr (.inr (.inl ⟨congrArg Fin.val h.1, congrArg Fin.val h.2⟩))
    · exact .inr (.inr (.inr (.inl ⟨congrArg Fin.val h.1, h.2⟩)))
    · exact .inr (.inr (.inr (.inr (.inl h.1))))
    · exact .inr (.inr (.inr (.inr (.inr (congrArg (fun v => v.a.val) h)))))
  omega

/-! ## IPv6 -/

theorem toLower_digitChar : ∀ d < 16, (Nat.digitChar d).toLower = Nat.digitChar d := by decide

/-- A text whose first group has four digits, of which three are given. -/
theorem lower_text {w : Ipv6} {g : Nat} (hg : w.groups.head? = some g) (hlo : 4096 ≤ g) :
    ∃ rest, w.text.map Char.toLower = Nat.digitChar (g / 4096) :: Nat.digitChar (g / 256 % 16) ::
      Nat.digitChar (g / 16 % 16) :: rest := by
  obtain ⟨gs, hgs⟩ : ∃ gs, w.groups = g :: gs := by
    cases hw : w.groups with
    | nil =>
      rw [hw] at hg
      cases hg
    | cons x gs =>
      rw [hw] at hg
      cases hg
      exact ⟨gs, rfl⟩
  have hlt : g < 65536 := w.group_lt g (hgs ▸ List.mem_cons_self)
  obtain ⟨rest, hrest⟩ := Ipv6.text_head hgs (by omega)
  rw [hrest, hex_four hlo hlt]
  refine ⟨Nat.digitChar (g % 16) :: rest.map Char.toLower, ?_⟩
  simp only [List.cons_append, List.nil_append, List.map_cons,
    toLower_digitChar (g / 4096) (by omega), toLower_digitChar (g / 256 % 16) (by omega),
    toLower_digitChar (g / 16 % 16) (by omega), toLower_digitChar (g % 16) (by omega)]

theorem isPrivateIpv6_of_internal {w : Ipv6} (h : w.Internal) (hmap : ¬ w.MapsInternal) :
    isPrivateIpv6 w.text = true := by
  -- a text that is known as a whole
  have whole : ∀ gs, w.groups = gs → ∀ w' : Ipv6, w'.groups = gs → isPrivateIpv6 w'.text = true →
      isPrivateIpv6 w.text = true := by
    intro gs hgs w' hgs' h'
    have hw : w = w' := by
      cases w
      cases w'
      cases hgs
      cases hgs'
      rfl
    rw [hw]
    exact h'
  -- and one of which three digits are
  have digits : ∀ g, w.groups.head? = some g → 4096 ≤ g → g / 4096 = 15 →
      (g / 256 % 16 = 14 ∧ 8 ≤ g / 16 % 16 ∧ g / 16 % 16 ≤ 11) ∨
        (12 ≤ g / 256 % 16 ∧ g / 256 % 16 ≤ 13) ∨ g / 256 % 16 = 15 →
      isPrivateIpv6 w.text = true := by
    intro g hg hlo hfirst hrest
    obtain ⟨rest, hlower⟩ := lower_text hg hlo
    rw [isPrivateIpv6, hlower, hfirst]
    rcases hrest with ⟨hsecond, hlo, hhi⟩ | ⟨hlo, hhi⟩ | hsecond
    · have hthird : g / 16 % 16 = 8 ∨ g / 16 % 16 = 9 ∨ g / 16 % 16 = 10 ∨ g / 16 % 16 = 11 := by
        omega
      rw [hsecond]
      rcases hthird with h | h | h | h <;> rw [h] <;> simp [Nat.digitChar, List.isPrefixOf]
    · have hsecond : g / 256 % 16 = 12 ∨ g / 256 % 16 = 13 := by omega
      rcases hsecond with h | h <;> rw [h] <;> simp [Nat.digitChar, List.isPrefixOf]
    · rw [hsecond]
      simp [Nat.digitChar, List.isPrefixOf]
  rcases h with h | ⟨g, hg, hlo, hhi⟩ | ⟨g, hg, hlo, hhi⟩ | ⟨g, hg, hlo⟩ | h | h
  · exact whole _ h ⟨[0, 0, 0, 0, 0, 0, 0, 1], rfl, by decide⟩ rfl (by decide)
  · exact digits g hg (by omega) (by omega) (by omega)
  · exact digits g hg (by omega) (by omega) (by omega)
  · have hlt : g < 65536 := w.group_lt g (List.mem_of_mem_head? hg)
    exact digits g hg (by omega) (by omega) (by omega)
  · exact whole _ h ⟨[0, 0, 0, 0, 0, 0, 0, 0], rfl, by decide⟩ rfl (by decide)
  · exact absurd h hmap

/-- The text of an IPv6 address has no dots: no embedded address is found. -/
theorem extractMappedIpv4_text (w : Ipv6) : extractMappedIpv4 w.text = none := by
  have hlower : '.' ∉ w.text.map Char.toLower := by
    intro hmem
    obtain ⟨c, hc, hdot⟩ := List.mem_map.1 hmem
    rcases Ipv6.mem_text hc with rfl | ⟨d, hd, rfl⟩
    · cases hdot
    · rw [toLower_digitChar d hd] at hdot
      refine (hexDigit_spec d hd).2 ?_
      rw [hdot]
      decide
  have htail : '.' ∉ afterLastColon (w.text.map Char.toLower) := fun hmem =>
    hlower ((List.rtakeWhile_suffix _ _).subset hmem)
  simp only [extractMappedIpv4, isIPv4_of_not_mem htail, Bool.and_false, Bool.false_eq_true,
    if_false]

theorem isPrivateIpv6_mapped (v : Ipv4) : isPrivateIpv6 (Ipv6.mapped v).text = false := by
  simp [isPrivateIpv6, Ipv6.text_mapped, List.isPrefixOf]

theorem assertPublicAddress_v6 (w : Ipv6) : assertPublicAddress w.text =
    if isPrivateIpv6 w.text then .error ("private_ipv6:" ++ String.ofList w.text) else .ok () := by
  have hdots : isIPv4 w.text = false := isIPv4_of_not_mem (Ipv6.not_mem_text (by simp))
  simp only [assertPublicAddress, hdots, Bool.false_eq_true, if_false, extractMappedIpv4_text]

/-! ## The guard -/

/-- An internal address is refused, and nothing is fetched from it. -/
def Guarded (a : Address) : Prop :=
  a.Internal → (∀ lookup, ∃ e, assertPublicHost lookup a.hostname = .error e) ∧
    ∀ network url parsed, network.parse url = some parsed → parsed.hostname = a.hostname →
      (probe network url).2 = []

theorem guarded_of_refused {a : Address}
    (h : a.Internal → ∃ e, assertPublicAddress a.text = .error e) : Guarded a := by
  intro hinternal
  obtain ⟨e, he⟩ := h hinternal
  have hrefused (lookup : Text → Except String (List Text)) :
      assertPublicHost lookup a.hostname = .error e := (assertPublicHost_hostname lookup a).trans he
  refine ⟨fun lookup => ⟨e, hrefused lookup⟩, fun network url parsed hparse hhost => ?_⟩
  simp only [probe, hparse, hhost, hrefused]
  split <;> rfl

theorem not_guarded_mapped {v : Ipv4} (hv : v.Internal) : ¬ Guarded (.v6 (.mapped v)) := by
  intro h
  have hinternal : (Address.v6 (.mapped v)).Internal :=
    .inr (.inr (.inr (.inr (.inr ⟨v, hv, rfl⟩))))
  obtain ⟨e, he⟩ := (h hinternal).1 fun _ => .ok []
  rw [assertPublicHost_hostname, Address.text, assertPublicAddress_v6, isPrivateIpv6_mapped] at he
  cases he

/-- Exactly the addresses that do not map an internal IPv4 address are guarded. -/
theorem guarded_iff (a : Address) :
    Guarded a ↔ ¬ ∃ v : Ipv4, v.Internal ∧ a = .v6 (.mapped v) := by
  constructor
  · rintro h ⟨v, hv, rfl⟩
    exact not_guarded_mapped hv h
  · intro h
    refine guarded_of_refused fun hinternal => ?_
    cases a with
    | v4 v =>
      refine ⟨"private_ipv4:" ++ String.ofList v.text, ?_⟩
      rw [Address.text, assertPublicAddress, isIPv4_text, if_pos rfl,
        isPrivateIpv4_of_internal hinternal, if_pos rfl]
    | v6 w =>
      have hmap : ¬ w.MapsInternal := by
        rintro ⟨v, hv, rfl⟩
        exact h ⟨v, hv, rfl⟩
      refine ⟨"private_ipv6:" ++ String.ofList w.text, ?_⟩
      rw [Address.text, assertPublicAddress_v6, isPrivateIpv6_of_internal hinternal hmap,
        if_pos rfl]

/-- `http://[::ffff:7f00:1]/` -/
theorem guarded_mapped_loopback : ¬ ∀ a : Address, Guarded a := by
  intro h
  have hloopback : Ipv4.Internal ⟨127, 0, 0, 1⟩ := .inl rfl
  exact not_guarded_mapped hloopback (h _)

end

end JobBoard.Links
