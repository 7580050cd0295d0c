import Cygnus.Delivery.Destination

/-! When the allowlist is exact: an accepted address has the host and the port of a configured target,
and its normalised form is accepted as it is. -/

namespace Cygnus.Delivery

open Text Result Url

variable {unicode : Unicode} {targets : List (Chars × Chars)} {allowed : List Chars}
  {allowInsecureHttp : Bool} {rawUrl url : Chars}

section Addresses

variable (unicode) in
/-- The host and the port that an address names. -/
def address (rawUrl : Chars) : Option (Chars × Option Nat) := do
  let parts ← urlsplit unicode (stripText rawUrl)
  let hostname ← parts.hostname unicode
  let port ← parts.port
  return (normalizedHost unicode hostname, port)

theorem originOf_ok {origin : Chars} :
    originOf unicode rawUrl = .ok origin ↔
      ∃ host port, address unicode rawUrl = some (host, port) ∧ origin = netloc host port := by
  unfold originOf address
  cases urlsplit unicode (stripText rawUrl) with
  | none => simp [demand, bind, Except.bind]
  | some parts =>
    cases hname : parts.hostname unicode with
    | none => simp [demand, bind, Except.bind, hname]
    | some hostname =>
      cases hport : parts.port with
      | none => simp [demand, bind, Except.bind, hname, hport]
      | some port => simp [demand, bind, Except.bind, pure, Except.pure, hname, hport, eq_comm]

/-- What validation finds in an address that it accepts. -/
structure Accepts (unicode : Unicode) (allowed : List Chars) (allowInsecureHttp : Bool)
    (parts : SplitResult) (host : Chars) (port : Option Nat) : Prop where
  scheme : parts.scheme ∈ schemes
  secure : ¬ (parts.scheme = insecureScheme ∧ allowInsecureHttp = false)
  anonymous : parts.username = none ∧ parts.password = none
  bare : parts.query = [] ∧ parts.fragment = []
  named : (parts.hostname unicode).map (normalizedHost unicode) = some host
  syntactic : validateHostSyntax host = .ok ()
  numbered : parts.port = some port
  listed : netloc host port ∈ allowed

theorem validate_ok :
    validateDeliveryDestination unicode rawUrl allowed allowInsecureHttp = .ok url ↔
      stripText rawUrl ≠ [] ∧ ∃ parts host port, urlsplit unicode (stripText rawUrl) = some parts ∧
        Accepts unicode allowed allowInsecureHttp parts host port ∧
        url = urlOf parts.scheme (netloc host port)
          (if parts.path = [] then ['/'] else parts.path) := by
  unfold validateDeliveryDestination
  simp only [bind_ok, require_ok, demand_ok, pure_ok]
  constructor
  · rintro ⟨-, hblank, parts, hparts, -, hscheme, -, hsecure, -, hanonymous, -, hbare, hostname, hname,
      ⟨⟩, hsyntax, port, hport, -, hlisted, rfl⟩
    refine ⟨hblank, parts, normalizedHost unicode hostname, port, hparts, ?_, rfl⟩
    exact ⟨hscheme, hsecure, hanonymous, hbare, by rw [hname]; rfl, hsyntax, hport, hlisted⟩
  · rintro ⟨hblank, parts, host, port, hparts, haccepts, rfl⟩
    obtain ⟨hostname, hname, rfl⟩ := Option.map_eq_some_iff.mp haccepts.named
    exact ⟨(), hblank, parts, hparts, (), haccepts.scheme, (), haccepts.secure, (),
      haccepts.anonymous, (), haccepts.bare, hostname, hname, (), haccepts.syntactic, port,
      haccepts.numbered, (), haccepts.listed, rfl⟩

theorem address_some {parts : SplitResult} {host : Chars} {port : Option Nat}
    (h : urlsplit unicode (stripText rawUrl) = some parts) :
    address unicode rawUrl = some (host, port) ↔
      (parts.hostname unicode).map (normalizedHost unicode) = some host ∧
        parts.port = some port := by
  rw [address, h]
  cases hname : parts.hostname unicode with
  | none => simp [hname]
  | some hostname =>
    cases hport : parts.port with
    | none => simp [hname, hport]
    | some port => simp [hname, hport]

end Addresses

section Hosts

variable {host : Chars} {port : Option Nat}

theorem isHostChar_of_label (c : Char) (h : (isLabelChar c || c = '-') = true) :
    isHostChar c = true := by
  rw [isHostChar, Bool.or_eq_true]
  exact .inl h

/-- A host that validation takes is an IPv6 address or has no colon. -/
theorem validateHostSyntax_ok (h : validateHostSyntax host = .ok ()) :
    HasHextets host ∨ IsPlainHost host := by
  unfold validateHostSyntax at h
  split at h
  · rename_i haddress
    rw [isIpAddress, Bool.or_eq_true] at haddress
    exact haddress.symm.imp hasHextets_of_isIpv6 isPlainHost_of_isIpv4
  · obtain ⟨-, -, hlabels⟩ := bind_ok.mp h
    rw [require_ok] at hlabels
    refine .inr (isPlainHost_of_pieces isHostChar_of_label fun piece hpiece => ?_)
    obtain ⟨hne, -, hlabel⟩ := hlabels piece hpiece
    rw [isDnsLabel, Bool.and_eq_true] at hlabel
    exact ⟨hne, hlabel.2⟩

theorem digits_toString (n : Nat) : ∀ c ∈ (toString n).toList, c.isDigit = true := by
  intro c hc
  rw [Nat.toString_eq_repr, Nat.toList_repr] at hc
  exact Nat.isDigit_of_mem_toDigits (by decide) (by decide) hc

theorem number_toString (n : Nat) : Nat.ofDigitChars 10 (toString n).toList 0 = n := by
  rw [Nat.toString_eq_repr, Nat.toList_repr, Nat.ofDigitChars_ten_toDigits]

theorem toString_ne_nil (n : Nat) : (toString n).toList ≠ [] := by
  rw [Nat.toString_eq_repr]
  exact fun h => absurd (String.toList_eq_nil_iff.mp h) Nat.repr_ne_empty

theorem isPlainNetloc (h : IsPlainHost host) : IsPlainNetloc (netloc host port) := by
  intro c hc
  cases port with
  | none => exact .inl (h.plain c hc)
  | some n =>
    rcases List.mem_append.mp hc with hc | hc
    · exact .inl (h.plain c hc)
    · rcases List.mem_cons.mp hc with rfl | hc
      · exact .inr rfl
      · exact .inl (by simp [isHostChar, digits_toString n c hc])

theorem partition_netloc (h : ':' ∉ host) :
    partition ':' (netloc host port) =
      (host, port.elim [] fun n => (toString n).toList) := by
  cases port with
  | none => exact partition_of_not_mem h
  | some n => exact partition_append h

/-- Without a colon in the host the flattened host and port can be told apart. -/
theorem netloc_injective {host' : Chars} {port' : Option Nat} (h : ':' ∉ host) (h' : ':' ∉ host')
    (heq : netloc host port = netloc host' port') : host = host' ∧ port = port' := by
  have hparts := congrArg (partition ':') heq
  rw [partition_netloc h, partition_netloc h', Prod.mk.injEq] at hparts
  refine ⟨hparts.1, ?_⟩
  cases port with
  | none =>
    cases port' with
    | none => rfl
    | some n => exact absurd hparts.2.symm (toString_ne_nil n)
  | some m =>
    cases port' with
    | none => exact absurd hparts.2 (toString_ne_nil m)
    | some n =>
      have hnumbers := congrArg (Nat.ofDigitChars 10 · 0) hparts.2
      simp only [Option.elim_some, number_toString] at hnumbers
      rw [hnumbers]

theorem exists_netloc (first second rest : Chars) (port : Option Nat) :
    ∃ more, netloc (first ++ ':' :: (second ++ ':' :: rest)) port =
      first ++ ':' :: (second ++ ':' :: more) := by
  cases port with
  | none => exact ⟨rest, rfl⟩
  | some n => exact ⟨rest ++ ':' :: (toString n).toList, by simp [netloc]⟩

/-- A host without a colon is not listed under the text of an IPv6 address. -/
theorem netloc_ne_hextets {host' : Chars} {port' : Option Nat} (h : HasHextets host)
    (h' : ':' ∉ host') : netloc host' port' ≠ netloc host port := by
  intro heq
  obtain ⟨first, second, rest, rfl, hfirst, -⟩ := h
  obtain ⟨more, hmore⟩ := exists_netloc first second rest port
  have hparts := congrArg (partition ':') heq
  rw [hmore, partition_netloc h', partition_append (ne_of_all_isHexDigit hfirst (by decide)),
    Prod.mk.injEq] at hparts
  have hcolon : ':' ∈ port'.elim [] fun n => (toString n).toList := by
    rw [hparts.2]
    exact List.mem_append_right _ List.mem_cons_self
  cases port' with
  | none => cases hcolon
  | some n => exact absurd (digits_toString n ':' hcolon) (by decide)

theorem port_le {parts : SplitResult} {n : Nat} (h : parts.port = some (some n)) : n ≤ 65535 := by
  unfold SplitResult.port at h
  dsimp only at h
  split at h
  · cases h
  · split at h
    · rename_i hdigits
      obtain rfl := Option.some.inj (Option.some.inj h)
      simp only [Bool.and_eq_true, decide_eq_true_eq] at hdigits
      exact hdigits.2
    · cases h

/-- The host and the port read back from a flattened netloc without an IPv6 address. -/
theorem hostinfo_netloc {parts : SplitResult} (h : IsPlainHost host)
    (hnetloc : parts.netloc = netloc host port) (hport : ∀ n ∈ port, n ≤ 65535) :
    parts.username = none ∧ parts.password = none ∧
      (parts.hostname unicode).map (normalizedHost unicode) = some host ∧ parts.port = some port := by
  have habsent : ∀ d, isHostChar d = false → d ≠ ':' → d ∉ parts.netloc := by
    intro d hd hne hmem
    rw [hnetloc] at hmem
    rcases isPlainNetloc h d hmem with hplain | hcolon
    · rw [hplain] at hd
      cases hd
    · exact hne hcolon
  have huser : '@' ∉ parts.netloc := habsent '@' (by decide) (by decide)
  have hinfo : parts.hostinfo = (host, port.elim [] fun n => (toString n).toList) := by
    rw [SplitResult.hostinfo_of_plain huser (habsent '[' (by decide) (by decide)), hnetloc,
      partition_netloc (isPlainHost_no_colon h)]
  refine ⟨?_, ?_, ?_, ?_⟩
  · rw [SplitResult.username, if_neg huser]
  · simp [SplitResult.password, huser]
  · have hscope : '%' ∉ host := fun hmem => absurd (h.plain '%' hmem) (by decide)
    have hlower : unicode.lower host = host := by
      rw [unicode.lower_ascii host fun c hc => (isHostChar_lt (h.plain c hc)).1]
      exact (List.map_congr_left fun c hc => (isHostChar_lt (h.plain c hc)).2).trans (List.map_id host)
    have hpoint : host.rdropWhile (· = '.') = host := by
      rw [List.rdropWhile_eq_self_iff]
      intro hne hlast
      refine h.last ?_
      rw [List.getLast?_eq_some_getLast hne, decide_eq_true_eq.mp hlast]
    rw [SplitResult.hostname, hinfo]
    simp [h.nonempty, hscope, partition_of_not_mem hscope, normalizedHost, hlower, hpoint]
  · rw [SplitResult.port, hinfo]
    cases port with
    | none => rfl
    | some n =>
      have hle := hport n rfl
      have hall : (toString n).toList.all Char.isDigit = true :=
        List.all_eq_true.mpr (digits_toString n)
      simp only [Option.elim_some, toString_ne_nil n, if_false, number_toString, hall, hle]
      simp

theorem Accepts.hasHost {parts : SplitResult}
    (h : Accepts unicode allowed allowInsecureHttp parts host port) :
    parts.hostname unicode ≠ none := by
  intro hnone
  have hnamed := h.named
  rw [hnone] at hnamed
  cases hnamed

theorem Accepts.port_le {parts : SplitResult}
    (h : Accepts unicode allowed allowInsecureHttp parts host port) : ∀ n ∈ port, n ≤ 65535 := by
  rintro n rfl
  exact Delivery.port_le h.numbered

end Hosts

section Revalidation

variable {parts : SplitResult} {host path : Chars} {port : Option Nat}

theorem stripText_urlOf {scheme : Chars} (h : scheme ∈ schemes) (origin path : Chars) :
    stripText (urlOf scheme origin ('/' :: path)) =
      urlOf scheme origin ('/' :: path.rdropWhile isSpace) := by
  have hassoc : ∀ path, urlOf scheme origin ('/' :: path) =
      (scheme ++ ':' :: '/' :: '/' :: origin) ++ '/' :: path := by
    intro path
    simp [urlOf]
  have hstart : (urlOf scheme origin ('/' :: path)).dropWhile isSpace =
      urlOf scheme origin ('/' :: path) := by
    rcases List.mem_cons.mp h with rfl | h
    · rfl
    · rw [List.mem_singleton.mp h]
      rfl
  rw [stripText, hstart, hassoc, hassoc, rdropWhile_append_stop (by decide)]

theorem isPath_rstrip (h : IsPath ('/' :: path)) : IsPath ('/' :: path.rdropWhile isSpace) := by
  constructor
  · intro c hc
    exact (Option.some.inj hc).symm
  · intro c hc
    refine h.clean c ?_
    exact (List.cons_subset_cons '/' (List.rdropWhile_prefix isSpace path).subset) hc

/-- The normalised form of an accepted address without an IPv6 host names the same host and port. -/
theorem split_urlOf {scheme : Chars} (hscheme : scheme ∈ schemes) (h : IsPlainHost host)
    (hpath : IsPath ('/' :: path)) :
    urlsplit unicode (stripText (urlOf scheme (netloc host port) ('/' :: path))) =
      some ⟨scheme, netloc host port, '/' :: path.rdropWhile isSpace, [], []⟩ := by
  rw [stripText_urlOf hscheme, urlOf]
  exact urlsplit_plain hscheme (isPlainNetloc h) (isPath_rstrip hpath)

theorem address_urlOf {scheme : Chars} (hscheme : scheme ∈ schemes) (h : IsPlainHost host)
    (hport : ∀ n ∈ port, n ≤ 65535) (hpath : IsPath ('/' :: path)) :
    address unicode (urlOf scheme (netloc host port) ('/' :: path)) = some (host, port) := by
  rw [address_some (split_urlOf hscheme h hpath)]
  exact (hostinfo_netloc h rfl hport).2.2

/-- It is accepted again, without the blanks at its end. -/
theorem revalidate (haccepts : Accepts unicode allowed allowInsecureHttp parts host port)
    (h : IsPlainHost host) (hpath : IsPath ('/' :: path)) :
    validateDeliveryDestination unicode (urlOf parts.scheme (netloc host port) ('/' :: path)) allowed
      allowInsecureHttp =
        .ok (urlOf parts.scheme (netloc host port) ('/' :: path.rdropWhile isSpace)) := by
  rw [validate_ok]
  refine ⟨?_, _, host, port, split_urlOf haccepts.scheme h hpath, ?_, rfl⟩
  · rw [stripText_urlOf haccepts.scheme, urlOf]
    simp
  · obtain ⟨huser, hpassword, hnamed, hnumbered⟩ := @hostinfo_netloc unicode host port
      ⟨parts.scheme, netloc host port, '/' :: path.rdropWhile isSpace, [], []⟩ h rfl haccepts.port_le
    exact ⟨haccepts.scheme, haccepts.secure, ⟨huser, hpassword⟩, ⟨rfl, rfl⟩, hnamed,
      haccepts.syntactic, hnumbered, haccepts.listed⟩

/-- An IPv6 host is not accepted again: the normalised form has lost its brackets. -/
theorem not_revalidated {scheme : Chars} (hscheme : scheme ∈ schemes) (h : HasHextets host) :
    validateDeliveryDestination unicode (urlOf scheme (netloc host port) ('/' :: path)) allowed
      allowInsecureHttp ≠ .ok url := by
  intro hvalid
  obtain ⟨-, parts, host', port', hparts, haccepts, -⟩ := validate_ok.mp hvalid
  obtain ⟨first, second, rest, rfl, hfirst, hsecond⟩ := h
  obtain ⟨more, hmore⟩ := exists_netloc first second rest port
  rw [stripText_urlOf hscheme, urlOf, hmore] at hparts
  simp only [List.append_assoc, List.cons_append] at hparts
  obtain ⟨hchecked, more', hnetloc⟩ := netloc_of_hextets hscheme hfirst hsecond hparts
  have huser : '@' ∉ parts.netloc := by
    intro hmem
    have hnone := haccepts.anonymous.1
    rw [SplitResult.username, if_pos hmem] at hnone
    cases hnone
  have hport := port_of_hextets hfirst hnetloc hchecked huser
  rw [haccepts.numbered] at hport
  cases hport

end Revalidation

section Exactness

/-- The host and the port of the address are those of a configured target. -/
def Configured (unicode : Unicode) (targets : List (Chars × Chars)) (rawUrl : Chars) : Prop :=
  ∃ target ∈ targets, ∃ origin,
    address unicode target.2 = some origin ∧ address unicode rawUrl = some origin

/-- The target is listed under the text, and its host has a colon or none, as `colon` says. -/
def ListedAs (unicode : Unicode) (targets : List (Chars × Chars)) (origin : Chars) (colon : Bool) :
    Prop :=
  ∃ target ∈ targets, ∃ host port, address unicode target.2 = some (host, port) ∧
    netloc host port = origin ∧ decide (':' ∈ host) = colon

/-- The host of the address is no IPv6 address, no blank ends the path, and the address is not listed
for a target with a colon in its host alone. -/
structure Exact (unicode : Unicode) (targets : List (Chars × Chars)) (rawUrl : Chars) : Prop where
  host : ∀ host port, address unicode rawUrl = some (host, port) → ':' ∉ host
  path : ∀ parts, urlsplit unicode (stripText rawUrl) = some parts →
    parts.path.rdropWhile isSpace = parts.path
  listed : ∀ host port, address unicode rawUrl = some (host, port) →
    ListedAs unicode targets (netloc host port) true →
      ListedAs unicode targets (netloc host port) false

theorem listedAs_of_mem {origin : Chars} (h : deliveryTargetOrigins unicode targets = .ok allowed)
    (horigin : origin ∈ allowed) : ∃ colon, ListedAs unicode targets origin colon := by
  obtain ⟨target, htarget, htext⟩ := mem_of_mapM_ok h horigin
  obtain ⟨host, port, haddress, rfl⟩ := originOf_ok.mp htext
  exact ⟨_, target, htarget, host, port, haddress, rfl, rfl⟩

/-- For a host without a colon the allowlist is exact where it lists a target without a colon. -/
theorem configured_iff {host : Chars} {port : Option Nat} (hhost : ':' ∉ host)
    (h : address unicode rawUrl = some (host, port)) :
    Configured unicode targets rawUrl ↔ ListedAs unicode targets (netloc host port) false := by
  constructor
  · rintro ⟨target, htarget, origin, hother, horigin⟩
    rw [h] at horigin
    obtain rfl := Option.some.inj horigin
    exact ⟨target, htarget, host, port, hother, rfl, decide_eq_false hhost⟩
  · rintro ⟨target, htarget, host', port', hother, hsame, hcolon⟩
    obtain ⟨rfl, rfl⟩ := netloc_injective (of_decide_eq_false hcolon) hhost hsame
    exact ⟨target, htarget, (host', port'), hother, h⟩

/-- The path that is kept is never empty. -/
theorem exists_path {parts : SplitResult} (h : urlsplit unicode (stripText rawUrl) = some parts)
    (hhost : parts.hostname unicode ≠ none) :
    ∃ path, (if parts.path = [] then ['/'] else parts.path) = '/' :: path ∧ IsPath ('/' :: path) ∧
      (path.rdropWhile isSpace = path ↔ parts.path.rdropWhile isSpace = parts.path) := by
  have hnetloc : parts.netloc ≠ [] := by
    intro hnil
    refine hhost ?_
    rw [SplitResult.hostname, SplitResult.hostinfo, hnil]
    rfl
  have hpath := isPath_of_urlsplit h hnetloc
  cases hparts : parts.path with
  | nil => exact ⟨[], rfl, ⟨fun c hc => (Option.some.inj hc).symm, by simp; decide⟩, by simp⟩
  | cons c path =>
    rw [hparts] at hpath
    obtain rfl := hpath.head c rfl
    have hstop : ('/' :: path).rdropWhile isSpace = '/' :: path.rdropWhile isSpace :=
      @rdropWhile_append_stop isSpace '/' [] path (by decide)
    refine ⟨path, rfl, hpath, ?_⟩
    rw [hstop, List.cons.injEq, and_iff_right rfl]

/-- An accepted address names the configured host and port and is stable exactly if it is `Exact`. -/
theorem accepted_exact_iff (horigins : deliveryTargetOrigins unicode targets = .ok allowed)
    (h : validateDeliveryDestination unicode rawUrl allowed allowInsecureHttp = .ok url) :
    (Configured unicode targets rawUrl ∧
      validateDeliveryDestination unicode url allowed allowInsecureHttp = .ok url) ↔
        Exact unicode targets rawUrl := by
  obtain ⟨-, parts, host, port, hparts, haccepts, rfl⟩ := validate_ok.mp h
  have haddress : address unicode rawUrl = some (host, port) :=
    (address_some hparts).mpr ⟨haccepts.named, haccepts.numbered⟩
  obtain ⟨path, hkept, hpath, hblank⟩ := exists_path hparts haccepts.hasHost
  rw [hkept]
  rcases validateHostSyntax_ok haccepts.syntactic with hhextets | hplain
  · constructor
    · rintro ⟨-, hagain⟩
      exact absurd hagain (not_revalidated haccepts.scheme hhextets)
    · intro hexact
      exact absurd (colon_of_hasHextets hhextets) (hexact.host host port haddress)
  · have hcolon := isPlainHost_no_colon hplain
    rw [configured_iff hcolon haddress, revalidate haccepts hplain hpath]
    constructor
    · rintro ⟨hlisted, hagain⟩
      refine ⟨?_, ?_, ?_⟩
      · intro host' port' hother
        obtain ⟨rfl, rfl⟩ := Prod.mk.inj (Option.some.inj (haddress.symm.trans hother))
        exact hcolon
      · intro parts' hother
        obtain rfl := Option.some.inj (hparts.symm.trans hother)
        rw [← hblank]
        simpa [urlOf] using hagain
      · intro host' port' hother _
        obtain ⟨rfl, rfl⟩ := Prod.mk.inj (Option.some.inj (haddress.symm.trans hother))
        exact hlisted
    · intro hexact
      refine ⟨?_, ?_⟩
      · obtain ⟨colon, hlisted⟩ := listedAs_of_mem horigins haccepts.listed
        cases colon with
        | false => exact hlisted
        | true => exact hexact.listed host port haddress hlisted
      · rw [hblank.mpr (hexact.path parts hparts)]

/-- Where no configured host has a colon, an accepted address is one of a configured target. -/
theorem configured_of_named (horigins : deliveryTargetOrigins unicode targets = .ok allowed)
    (htargets : ∀ origin, ¬ ListedAs unicode targets origin true)
    (h : validateDeliveryDestination unicode rawUrl allowed allowInsecureHttp = .ok url) :
    Configured unicode targets rawUrl := by
  obtain ⟨-, parts, host, port, hparts, haccepts, rfl⟩ := validate_ok.mp h
  have haddress : address unicode rawUrl = some (host, port) :=
    (address_some hparts).mpr ⟨haccepts.named, haccepts.numbered⟩
  obtain ⟨colon, hlisted⟩ := listedAs_of_mem horigins haccepts.listed
  cases colon with
  | true => exact absurd hlisted (htargets _)
  | false =>
    refine (configured_iff ?_ haddress).mpr hlisted
    obtain ⟨-, -, host', port', -, hsame, hcolon⟩ := hlisted
    rcases validateHostSyntax_ok haccepts.syntactic with hhextets | hplain
    · exact absurd hsame (netloc_ne_hextets hhextets (of_decide_eq_false hcolon))
    · exact isPlainHost_no_colon hplain

/-- The validated form of such an address names the same target. -/
theorem configured_url (horigins : deliveryTargetOrigins unicode targets = .ok allowed)
    (h : validateDeliveryDestination unicode rawUrl allowed allowInsecureHttp = .ok url)
    (hexact : Exact unicode targets rawUrl) : Configured unicode targets url := by
  obtain ⟨⟨target, htarget, origin, hother, horigin⟩, -⟩ := (accepted_exact_iff horigins h).mpr hexact
  obtain ⟨-, parts, host, port, hparts, haccepts, rfl⟩ := validate_ok.mp h
  have haddress : address unicode rawUrl = some (host, port) :=
    (address_some hparts).mpr ⟨haccepts.named, haccepts.numbered⟩
  obtain ⟨path, hkept, hpath, -⟩ := exists_path hparts haccepts.hasHost
  have hplain : IsPlainHost host :=
    (validateHostSyntax_ok haccepts.syntactic).resolve_left fun hhextets =>
      hexact.host host port haddress (colon_of_hasHextets hhextets)
  refine ⟨target, htarget, origin, hother, ?_⟩
  rw [hkept, address_urlOf haccepts.scheme hplain haccepts.port_le hpath, ← horigin, haddress]

end Exactness

section Redirects

variable {urljoin : Chars → Chars → Chars} {client : Nat → Chars → Option Reply}

/-- Every POST goes to the validated form of its text. -/
theorem postFrom_validated (left : Nat) {post : Post}
    (h : validateDeliveryDestination unicode post.rawUrl allowed allowInsecureHttp = .ok post.url) :
    ∀ sent ∈ (postFrom unicode urljoin allowed allowInsecureHttp client left post).1,
      validateDeliveryDestination unicode sent.rawUrl allowed allowInsecureHttp = .ok sent.url := by
  induction left generalizing post with
  | zero =>
    intro sent hsent
    cases hsent
  | succ left ih =>
    have halone : ∀ sent ∈ [post],
        validateDeliveryDestination unicode sent.rawUrl allowed allowInsecureHttp = .ok sent.url := by
      intro sent hsent
      rwa [List.mem_singleton.mp hsent]
    unfold postFrom
    split
    · exact halone
    · split
      · exact halone
      · dsimp only
        split
        · exact halone
        · split
          · exact halone
          · rename_i url hurl
            intro sent hsent
            rcases List.mem_cons.mp hsent with rfl | hlater
            · exact h
            · exact ih hurl sent hlater

theorem length_postFrom (left : Nat) (post : Post) :
    (postFrom unicode urljoin allowed allowInsecureHttp client left post).1.length ≤ left := by
  induction left generalizing post with
  | zero => exact Nat.le_refl 0
  | succ left ih =>
    have halone : [post].length ≤ left + 1 := Nat.le_add_left 1 left
    unfold postFrom
    split
    · exact halone
    · split
      · exact halone
      · dsimp only
        split
        · exact halone
        · split
          · exact halone
          · exact Nat.succ_le_succ (ih _)

end Redirects

/-- The allowlist is exact, and validation is stable, for the addresses that are `Exact` and no others;
of the at most six POSTs of a delivery those to such addresses go to a configured target. -/
theorem destinations_exact_iff (horigins : deliveryTargetOrigins unicode targets = .ok allowed)
    (allowInsecureHttp : Bool) :
    (∀ rawUrl url, validateDeliveryDestination unicode rawUrl allowed allowInsecureHttp = .ok url →
      ((Configured unicode targets rawUrl ∧
        validateDeliveryDestination unicode url allowed allowInsecureHttp = .ok url) ↔
          Exact unicode targets rawUrl)) ∧
    ∀ urljoin client post,
      validateDeliveryDestination unicode post.rawUrl allowed allowInsecureHttp = .ok post.url →
      (postWithRedirectValidation unicode urljoin allowed allowInsecureHttp client post).1.length ≤
          maxRedirectHops + 1 ∧
        ∀ sent ∈ (postWithRedirectValidation unicode urljoin allowed allowInsecureHttp client post).1,
          Exact unicode targets sent.rawUrl → Configured unicode targets sent.url := by
  refine ⟨fun rawUrl url h => accepted_exact_iff horigins h, ?_⟩
  intro urljoin client post hpost
  refine ⟨length_postFrom _ post, ?_⟩
  intro sent hsent hexact
  exact configured_url horigins (postFrom_validated _ hpost sent hsent) hexact

def asciiTables : Unicode := ⟨List.map Char.toLower, id, fun _ _ => rfl⟩

/-- A target by name. -/
def namedTargets : List (Chars × Chars) :=
  [("web".toList, "https://Consumer.test./".toList)]

theorem named_exact :
    ((Configured asciiTables namedTargets "HTTPS://consumer.test/in#".toList ∧
      validateDeliveryDestination asciiTables "https://consumer.test/in".toList
        ["consumer.test".toList] false = .ok "https://consumer.test/in".toList) ↔
          Exact asciiTables namedTargets "HTTPS://consumer.test/in#".toList) ∧
    (postWithRedirectValidation asciiTables (fun _ location => location) ["consumer.test".toList] false
      (fun _ _ => some ⟨302, some "https://consumer.test/out".toList⟩)
      ⟨"https://consumer.test/in#".toList, "https://consumer.test/in".toList⟩).1.length ≤ 6 :=
  ⟨(destinations_exact_iff (by decide +kernel) false).1 _ _ (by decide +kernel),
    ((destinations_exact_iff (by decide +kernel : deliveryTargetOrigins asciiTables namedTargets = _)
      false).2 _ _ _ (by decide +kernel)).1⟩

/-- A target at an IPv6 address with a port. -/
def numberedTargets : List (Chars × Chars) := [("web".toList, "https://[fe80::1]:443/".toList)]

/-- Without its brackets the address and its port read as another address. -/
theorem numbered_not_exact :
    deliveryTargetOrigins asciiTables numberedTargets = .ok ["fe80::1:443".toList] ∧
      validateDeliveryDestination asciiTables "https://[fe80::1:443]/".toList
        ["fe80::1:443".toList] false = .ok "https://fe80::1:443/".toList ∧
      ¬ Configured asciiTables numberedTargets "https://[fe80::1:443]/".toList ∧
      validateDeliveryDestination asciiTables "https://fe80::1:443/".toList
        ["fe80::1:443".toList] false = .error .value := by
  refine ⟨by decide +kernel, by decide +kernel, ?_, by decide +kernel⟩
  have htarget : address asciiTables "https://[fe80::1]:443/".toList =
      some ("fe80::1".toList, some 443) := by
    decide +kernel
  have haddress : address asciiTables "https://[fe80::1:443]/".toList =
      some ("fe80::1:443".toList, none) := by
    decide +kernel
  rintro ⟨target, hmem, origin, hother, horigin⟩
  obtain rfl := List.mem_singleton.mp hmem
  rw [htarget] at hother
  rw [haddress, ← hother] at horigin
  exact absurd horigin (by decide +kernel)

end Cygnus.Delivery
