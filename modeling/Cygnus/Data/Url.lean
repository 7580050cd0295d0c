import Cygnus.Data.Text

/-! Web addresses as `urllib.parse.urlsplit` takes them apart, with IP addresses as the `ipaddress`
module reads them. A text is the list of its characters. -/

namespace Cygnus.Url

open Text

abbrev Chars := List Char

/-- What depends on the Unicode tables: `str.lower` and the normal form NFKC. -/
structure Unicode where
  lower : Chars → Chars
  nfkc : Chars → Chars
  lower_ascii : ∀ s, (∀ c ∈ s, c.toNat < 128) → lower s = s.map Char.toLower

section Partition

/-- `str.partition`: what stands in front of the first separator, and what follows it. -/
def partition (sep : Char) (s : Chars) : Chars × Chars :=
  (s.takeWhile (· ≠ sep), (s.dropWhile (· ≠ sep)).tail)

/-- `str.rpartition`: what stands in front of the last separator, and what follows it. -/
def rpartition (sep : Char) (s : Chars) : Chars × Chars :=
  ((s.rdropWhile (· ≠ sep)).dropLast, s.rtakeWhile (· ≠ sep))

variable {sep : Char} {s first rest : Chars}

theorem partition_of_not_mem (h : sep ∉ s) : partition sep s = (s, []) := by
  have hall : ∀ c ∈ s, (decide (c ≠ sep)) = true :=
    fun c hc => decide_eq_true fun heq => h (heq ▸ hc)
  rw [partition, List.takeWhile_eq_self_iff.mpr hall, List.dropWhile_eq_nil_iff.mpr hall]
  rfl

theorem partition_append (h : sep ∉ first) : partition sep (first ++ sep :: rest) = (first, rest) := by
  have hall : ∀ c ∈ first, (decide (c ≠ sep)) = true :=
    fun c hc => decide_eq_true fun heq => h (heq ▸ hc)
  rw [partition, takeWhile_append_stop hall (by simp), dropWhile_append_stop hall (by simp)]
  rfl

theorem mem_partition_fst {c : Char} (h : c ∈ (partition sep s).1) : c ∈ s ∧ c ≠ sep :=
  ⟨(List.takeWhile_sublist _).subset h, by simpa using List.mem_takeWhile_imp h⟩

theorem partition_fst_head? {c : Char} (h : (partition sep s).1.head? = some c) :
    s.head? = some c := by
  cases s with
  | nil => cases h
  | cons d s =>
    rw [partition, List.takeWhile_cons] at h
    split at h
    · exact h
    · cases h

theorem rpartition_of_not_mem (h : sep ∉ s) : (rpartition sep s).2 = s :=
  List.rtakeWhile_eq_self_iff.mpr fun _ hc => decide_eq_true fun heq => h (heq ▸ hc)

end Partition

section Addresses

def isHexDigit (c : Char) : Bool := c.isDigit || ('a' ≤ c && c ≤ 'f') || ('A' ≤ c && c ≤ 'F')

/-- A number up to 255 without a leading zero. -/
def isOctet (s : Chars) : Bool :=
  s ≠ [] && s.all Char.isDigit && s.length ≤ 3 && (s = ['0'] || s.head? ≠ some '0') &&
    Nat.ofDigitChars 10 s 0 ≤ 255

/-- Whether `IPv4Address` takes the text. -/
def isIpv4 (s : Chars) : Bool := (s.splitOn '.').length = 4 && (s.splitOn '.').all isOctet

def isHextet (s : Chars) : Bool := s ≠ [] && s.all isHexDigit && s.length ≤ 4

/-- How many hextets stand on one side of `::`; a side without any is one empty part. -/
def hextets (parts : List Chars) : Option Nat :=
  if parts = [[]] then some 0 else if parts.all isHextet then some parts.length else none

/-- The parts, an IPv4 address at the end counting for two. -/
def ipv6Parts (parts : List Chars) : Option (List Chars) :=
  match parts.getLast? with
  | some last =>
    if '.' ∉ last then some parts
    else if isIpv4 last then some (parts.dropLast ++ [['0'], ['0']])
    else none
  | none => some parts

/-- The places, the ends left out, where a part is empty. -/
def skips (parts : List Chars) : List Nat :=
  (List.range parts.length).filter fun i =>
    0 < i && i + 1 < parts.length && (parts[i]? == some [])

def areIpv6Parts (parts : List Chars) : Bool :=
  match skips parts with
  | [] => parts.length = 8 && parts.all isHextet
  | [skip] =>
    match hextets (parts.take skip), hextets (parts.drop (skip + 1)) with
    | some hi, some lo => parts.length ≤ 9 && hi + lo < 8
    | _, _ => false
  | _ => false

/-- Whether `IPv6Address` takes the text, with a scope or without. -/
def isIpv6 (s : Chars) : Bool :=
  let address := (partition '%' s).1
  let scope := (partition '%' s).2
  let parts := address.splitOn ':'
  '/' ∉ s && ('%' ∉ s || (scope ≠ [] && '%' ∉ scope)) && 3 ≤ parts.length &&
    (ipv6Parts parts).any areIpv6Parts

/-- Whether `ipaddress.ip_address` takes the text. -/
def isIpAddress (s : Chars) : Bool := isIpv4 s || isIpv6 s

end Addresses

section Split

structure SplitResult where
  scheme : Chars
  netloc : Chars
  path : Chars
  query : Chars
  fragment : Chars
deriving DecidableEq

def isC0OrSpace (c : Char) : Bool := c.toNat ≤ 0x20

def isUnsafe (c : Char) : Bool := c = '\t' || c = '\r' || c = '\n'

def isSchemeChar (c : Char) : Bool := c.isAlphanum || c = '+' || c = '-' || c = '.'

/-- The scheme in lower case, and the rest of the address. -/
def splitScheme (url : Chars) : Chars × Chars :=
  let scheme := (partition ':' url).1
  if ':' ∈ url && scheme.head?.any Char.isAlpha && scheme.all isSchemeChar then
    (scheme.map Char.toLower, (partition ':' url).2)
  else ([], url)

def isDelimiter (c : Char) : Bool := c = '/' || c = '?' || c = '#'

/-- `v`, a version in hexadecimal, a point, and more. -/
def isIpvFuture (s : Chars) : Bool :=
  let digits := s.tail.takeWhile isHexDigit
  let more := s.tail.dropWhile isHexDigit
  s.head? = some 'v' && digits ≠ [] && more.head? = some '.' && more.tail ≠ [] && '\n' ∉ more

def isBracketedHost (name : Chars) : Bool :=
  if name.head? = some 'v' then isIpvFuture name else isIpv6 name

/-- Nothing stands in front of the opening bracket, and nothing but a port after the closing one. -/
def isBracketedNetloc (netloc : Chars) : Bool :=
  let host := (rpartition '@' netloc).2
  if '[' ∈ host then
    let bracketed := partition ']' (partition '[' host).2
    (partition '[' host).1 = [] && (bracketed.2 = [] || bracketed.2.head? = some ':') &&
      isBracketedHost bracketed.1
  else isBracketedHost (partition ':' host).1

def bracketsChecked (netloc : Chars) : Bool :=
  if '[' ∈ netloc then ']' ∈ netloc && isBracketedNetloc netloc else ']' ∉ netloc

/-- No character of the address becomes a delimiter under NFKC. -/
def netlocChecked (unicode : Unicode) (netloc : Chars) : Bool :=
  let plain := netloc.filter fun c => c ≠ '@' && c ≠ ':' && c ≠ '#' && c ≠ '?'
  netloc.all (·.toNat < 128) || unicode.nfkc plain = plain ||
    (unicode.nfkc plain).all fun c => !isDelimiter c && c ≠ '@' && c ≠ ':'

/-- The host with its port, where the address has one, and the rest. -/
def splitNetloc (url : Chars) : Chars × Chars :=
  if url.take 2 = ['/', '/'] then
    ((url.drop 2).takeWhile (!isDelimiter ·), (url.drop 2).dropWhile (!isDelimiter ·))
  else ([], url)

/-- `urlsplit`, none where it raises. -/
def urlsplit (unicode : Unicode) (url : Chars) : Option SplitResult :=
  let cleaned := (url.dropWhile isC0OrSpace).filter (!isUnsafe ·)
  let scheme := splitScheme cleaned
  let netloc := splitNetloc scheme.2
  let fragment := partition '#' netloc.2
  let query := partition '?' fragment.1
  if bracketsChecked netloc.1 && netlocChecked unicode netloc.1 then
    some ⟨scheme.1, netloc.1, query.1, query.2, fragment.2⟩
  else none

end Split

namespace SplitResult

def username (parts : SplitResult) : Option Chars :=
  if '@' ∈ parts.netloc then some (partition ':' (rpartition '@' parts.netloc).1).1 else none

def password (parts : SplitResult) : Option Chars :=
  let userinfo := (rpartition '@' parts.netloc).1
  if '@' ∈ parts.netloc && ':' ∈ userinfo then some (partition ':' userinfo).2 else none

/-- The host, out of its brackets, and the text of the port. -/
def hostinfo (parts : SplitResult) : Chars × Chars :=
  let host := (rpartition '@' parts.netloc).2
  if '[' ∈ host then
    let bracketed := partition ']' (partition '[' host).2
    (bracketed.1, (partition ':' bracketed.2).2)
  else partition ':' host

/-- The host in lower case; the scope of an IPv6 address is left as it is. -/
def hostname (unicode : Unicode) (parts : SplitResult) : Option Chars :=
  let host := parts.hostinfo.1
  if host = [] then none
  else
    let name := partition '%' host
    some (unicode.lower name.1 ++ if '%' ∈ host then '%' :: name.2 else [])

/-- The port if there is one; none where reading it raises. -/
def port (parts : SplitResult) : Option (Option Nat) :=
  let text := parts.hostinfo.2
  if text = [] then some none
  else if text.all Char.isDigit && Nat.ofDigitChars 10 text 0 ≤ 65535 then
    some (some (Nat.ofDigitChars 10 text 0))
  else none

theorem hostinfo_of_plain {parts : SplitResult} (huser : '@' ∉ parts.netloc)
    (hopen : '[' ∉ parts.netloc) : parts.hostinfo = partition ':' parts.netloc := by
  rw [hostinfo, rpartition_of_not_mem huser]
  exact if_neg hopen

end SplitResult

section Laws

variable {unicode : Unicode} {rest netloc path : Chars}

/-- The schemes of a web address. -/
def schemes : List Chars := [['h', 't', 't', 'p'], ['h', 't', 't', 'p', 's']]

theorem splitScheme_subset (url : Chars) : (splitScheme url).2 ⊆ url := by
  rw [splitScheme]
  split
  · exact fun c hc => (List.dropWhile_sublist _).subset (List.mem_of_mem_tail hc)
  · exact List.Subset.refl url

theorem splitNetloc_subset (url : Chars) : (splitNetloc url).2 ⊆ url := by
  rw [splitNetloc]
  split
  · exact fun c hc => List.mem_of_mem_drop ((List.dropWhile_sublist _).subset hc)
  · exact List.Subset.refl url

/-- What follows a host starts with a delimiter. -/
theorem splitNetloc_head? {url : Chars} {c : Char} (hne : (splitNetloc url).1 ≠ [])
    (h : (splitNetloc url).2.head? = some c) : isDelimiter c = true := by
  rw [splitNetloc] at hne h
  split at hne
  · rename_i hslashes
    rw [if_pos hslashes] at h
    have hstop := List.head?_dropWhile_not (!isDelimiter ·) (url.drop 2)
    rw [h] at hstop
    simpa using hstop
  · exact absurd rfl hne

/-- A web address is split into what stands in front of the first delimiter after the slashes, and
what follows. -/
theorem urlsplit_web {scheme : Chars} (h : scheme ∈ schemes) (rest : Chars) :
    urlsplit unicode (scheme ++ ':' :: '/' :: '/' :: rest) =
      let cleaned := rest.filter (!isUnsafe ·)
      let netloc := cleaned.takeWhile (!isDelimiter ·)
      let fragment := partition '#' (cleaned.dropWhile (!isDelimiter ·))
      let query := partition '?' fragment.1
      if bracketsChecked netloc && netlocChecked unicode netloc then
        some ⟨scheme, netloc, query.1, query.2, fragment.2⟩
      else none := by
  have hclean : ((scheme ++ ':' :: '/' :: '/' :: rest).dropWhile isC0OrSpace).filter (!isUnsafe ·) =
      scheme ++ ':' :: '/' :: '/' :: rest.filter (!isUnsafe ·) := by
    rcases List.mem_cons.mp h with rfl | h
    · rfl
    · rw [List.mem_singleton.mp h]
      rfl
  have hscheme : splitScheme (scheme ++ ':' :: '/' :: '/' :: rest.filter (!isUnsafe ·)) =
      (scheme, '/' :: '/' :: rest.filter (!isUnsafe ·)) := by
    rcases List.mem_cons.mp h with rfl | h
    · rfl
    · rw [List.mem_singleton.mp h]
      rfl
  rw [urlsplit, hclean]
  dsimp only
  rw [hscheme]
  rfl

/-- The path of an address with a host. -/
structure IsPath (path : Chars) : Prop where
  head : ∀ c, path.head? = some c → c = '/'
  clean : ∀ c ∈ path, c ≠ '?' ∧ c ≠ '#' ∧ isUnsafe c = false

theorem isPath_of_urlsplit {url : Chars} {parts : SplitResult}
    (h : urlsplit unicode url = some parts) (hnetloc : parts.netloc ≠ []) : IsPath parts.path := by
  rw [urlsplit] at h
  split at h
  · obtain rfl := Option.some.inj h
    generalize hcleaned : (url.dropWhile isC0OrSpace).filter (!isUnsafe ·) = cleaned at hnetloc
    have hsafe : ∀ c ∈ (splitNetloc (splitScheme cleaned).2).2, isUnsafe c = false := by
      intro c hc
      have hmem : c ∈ cleaned := splitScheme_subset cleaned (splitNetloc_subset _ hc)
      rw [← hcleaned] at hmem
      simpa using (List.mem_filter.mp hmem).2
    constructor
    · intro c hc
      have hpath := List.mem_of_mem_head? hc
      have hrest := partition_fst_head? (partition_fst_head? hc)
      have hdelimiter := splitNetloc_head? hnetloc hrest
      have hquestion := (mem_partition_fst hpath).2
      have hhash := (mem_partition_fst (mem_partition_fst hpath).1).2
      simpa [isDelimiter, hquestion, hhash] using hdelimiter
    · intro c hc
      have hfragment := mem_partition_fst (mem_partition_fst hc).1
      exact ⟨(mem_partition_fst hc).2, hfragment.2, hsafe c hfragment.1⟩
  · cases h

/-- The characters of a host by name or by IPv4 address. -/
def isHostChar (c : Char) : Bool := c.isLower || c.isDigit || c = '-' || c = '.'

theorem ne_of_isHostChar {c d : Char} (h : isHostChar c = true) (hd : isHostChar d = false) :
    c ≠ d := by
  rintro rfl
  rw [h] at hd
  cases hd

theorem isHostChar_lt {c : Char} (h : isHostChar c = true) : c.toNat < 128 ∧ c.toLower = c := by
  have hrange : c = '-' ∨ c = '.' ∨ 48 ≤ c.toNat ∧ c.toNat ≤ 57 ∨ 97 ≤ c.toNat ∧ c.toNat ≤ 122 := by
    have hchar : (decide ('a'.val ≤ c.val) && decide (c.val ≤ 'z'.val) || c.isDigit || c = '-' ||
        c = '.') = true := h
    simpa [isDigit_iff, UInt32.le_iff_toNat_le, or_comm, or_assoc, or_left_comm] using hchar
  have hlower : ¬ (65 ≤ c.toNat ∧ c.toNat ≤ 90) → c.toLower = c := by
    intro hupper
    exact dif_neg fun hrange => hupper (by simpa [UInt32.le_iff_toNat_le] using hrange)
  rcases hrange with rfl | rfl | hrange
  · decide
  · decide
  · exact ⟨by omega, hlower (by omega)⟩

theorem isDelimiter_of_isHostChar {c : Char} (h : isHostChar c = true) : isDelimiter c = false := by
  have hslash := ne_of_isHostChar h (by decide : isHostChar '/' = false)
  have hquestion := ne_of_isHostChar h (by decide : isHostChar '?' = false)
  have hhash := ne_of_isHostChar h (by decide : isHostChar '#' = false)
  simp [isDelimiter, hslash, hquestion, hhash]

theorem isUnsafe_of_isHostChar {c : Char} (h : isHostChar c = true) : isUnsafe c = false := by
  have htab := ne_of_isHostChar h (by decide : isHostChar '\t' = false)
  have hreturn := ne_of_isHostChar h (by decide : isHostChar '\r' = false)
  have hnewline := ne_of_isHostChar h (by decide : isHostChar '\n' = false)
  simp [isUnsafe, htab, hreturn, hnewline]

/-- A host of such characters, with its port. -/
def IsPlainNetloc (netloc : Chars) : Prop := ∀ c ∈ netloc, isHostChar c = true ∨ c = ':'

theorem urlsplit_plain {scheme : Chars} (hscheme : scheme ∈ schemes) (hnetloc : IsPlainNetloc netloc)
    (hpath : IsPath path) :
    urlsplit unicode (scheme ++ ':' :: '/' :: '/' :: (netloc ++ path)) =
      some ⟨scheme, netloc, path, [], []⟩ := by
  have hplain : ∀ p : Char → Bool, (∀ c, isHostChar c = true → p c = false) → p ':' = false →
      ∀ c ∈ netloc, p c = false := by
    intro p hp hcolon c hc
    rcases hnetloc c hc with h | rfl
    · exact hp c h
    · exact hcolon
  have hdelimiter := hplain isDelimiter (fun _ => isDelimiter_of_isHostChar) rfl
  have hsafe := hplain isUnsafe (fun _ => isUnsafe_of_isHostChar) rfl
  have hclean : (netloc ++ path).filter (!isUnsafe ·) = netloc ++ path := by
    refine List.filter_eq_self.mpr fun c hc => ?_
    rcases List.mem_append.mp hc with h | h
    · simp [hsafe c h]
    · simp [(hpath.clean c h).2.2]
  have hsplit : (netloc ++ path).takeWhile (!isDelimiter ·) = netloc ∧
      (netloc ++ path).dropWhile (!isDelimiter ·) = path := by
    have hall : ∀ c ∈ netloc, (!isDelimiter c) = true := fun c hc => by simp [hdelimiter c hc]
    cases path with
    | nil =>
      rw [List.append_nil, List.takeWhile_eq_self_iff.mpr hall, List.dropWhile_eq_nil_iff.mpr hall]
      exact ⟨rfl, rfl⟩
    | cons c path =>
      obtain rfl := hpath.head c rfl
      exact ⟨takeWhile_append_stop hall rfl, dropWhile_append_stop hall rfl⟩
  have hopen : '[' ∉ netloc := fun h => absurd (hnetloc _ h) (by decide)
  have hclose : ']' ∉ netloc := fun h => absurd (hnetloc _ h) (by decide)
  have hascii : netloc.all (·.toNat < 128) = true := by
    rw [List.all_eq_true]
    intro c hc
    rcases hnetloc c hc with h | rfl
    · exact decide_eq_true (isHostChar_lt h).1
    · rfl
  have hhash : '#' ∉ path := fun h => (hpath.clean _ h).2.1 rfl
  have hquestion : '?' ∉ path := fun h => (hpath.clean _ h).1 rfl
  rw [urlsplit_web hscheme, hclean]
  dsimp only
  rw [hsplit.1, hsplit.2]
  simp [bracketsChecked, netlocChecked, hopen, hclose, hascii, partition_of_not_mem hhash,
    partition_of_not_mem hquestion]

end Laws

section Hosts

variable {s : Chars}

theorem mem_splitOn_or {sep c : Char} (h : c ∈ s) : c = sep ∨ ∃ piece ∈ s.splitOn sep, c ∈ piece := by
  induction s with
  | nil => cases h
  | cons d s ih =>
    rw [List.splitOn_cons_eq_if_modifyHead]
    split
    · rename_i hsep
      rcases List.mem_cons.mp h with rfl | h
      · exact .inl (beq_iff_eq.mp hsep)
      · exact (ih h).imp id fun ⟨piece, hpiece, hc⟩ => ⟨piece, List.mem_cons_of_mem _ hpiece, hc⟩
    · cases hsplit : s.splitOn sep with
      | nil => exact absurd hsplit (List.splitOn_ne_nil sep s)
      | cons first pieces =>
        rw [hsplit] at ih
        rcases List.mem_cons.mp h with rfl | h
        · exact .inr ⟨c :: first, List.mem_cons_self, List.mem_cons_self⟩
        · rcases ih h with hc | ⟨piece, hpiece, hc⟩
          · exact .inl hc
          · rcases List.mem_cons.mp hpiece with rfl | hlater
            · exact .inr ⟨d :: piece, List.mem_cons_self, List.mem_cons_of_mem _ hc⟩
            · exact .inr ⟨piece, List.mem_cons_of_mem _ hlater, hc⟩

/-- A host by name or by IPv4 address, without a point at the end. -/
structure IsPlainHost (host : Chars) : Prop where
  nonempty : host ≠ []
  plain : ∀ c ∈ host, isHostChar c = true
  last : host.getLast? ≠ some '.'

theorem isPlainHost_of_pieces {p : Char → Bool} (hp : ∀ c, p c = true → isHostChar c = true)
    (h : ∀ piece ∈ s.splitOn '.', piece ≠ [] ∧ piece.all p = true) : IsPlainHost s := by
  constructor
  · rintro rfl
    exact (h [] (by simp)).1 rfl
  · intro c hc
    have hpieces : c = '.' ∨ ∃ piece ∈ s.splitOn '.', c ∈ piece := mem_splitOn_or hc
    rcases hpieces with rfl | ⟨piece, hpiece, hmem⟩
    · rfl
    · exact hp c (List.all_eq_true.mp (h piece hpiece).2 c hmem)
  · intro hlast
    obtain ⟨front, rfl⟩ := List.getLast?_eq_some_iff.mp hlast
    refine (h [] ?_).1 rfl
    rw [List.splitOn_append_cons_self]
    simp

theorem isPlainHost_of_isIpv4 (h : isIpv4 s = true) : IsPlainHost s := by
  simp only [isIpv4, Bool.and_eq_true, List.all_eq_true] at h
  refine isPlainHost_of_pieces (p := Char.isDigit) (fun c hc => by simp [isHostChar, hc]) ?_
  intro piece hpiece
  have hoctet := h.2 piece hpiece
  simp only [isOctet, Bool.and_eq_true, decide_eq_true_eq, ne_eq] at hoctet
  exact ⟨hoctet.1.1.1.1, hoctet.1.1.1.2⟩

/-- Two colons with nothing but hexadecimal digits in front of them. -/
def HasHextets (s : Chars) : Prop :=
  ∃ first second rest, s = first ++ ':' :: (second ++ ':' :: rest) ∧
    first.all isHexDigit = true ∧ second.all isHexDigit = true

theorem all_of_isHextets {parts : List Chars} (h : parts.all isHextet = true) :
    ∀ part ∈ parts, part.all isHexDigit = true := by
  intro part hpart
  have hhextet := List.all_eq_true.mp h part hpart
  simp only [isHextet, Bool.and_eq_true] at hhextet
  exact hhextet.1.2

theorem all_of_hextets {parts : List Chars} {n : Nat} (h : hextets parts = some n) :
    ∀ part ∈ parts, part.all isHexDigit = true := by
  unfold hextets at h
  split at h
  · rename_i hempty
    intro part hpart
    rw [hempty, List.mem_singleton] at hpart
    rw [hpart]
    rfl
  · split at h
    · exact all_of_isHextets ‹_›
    · cases h

theorem of_mem_skips {parts : List Chars} {skip : Nat} (h : skip ∈ skips parts) :
    0 < skip ∧ parts[skip]? = some [] := by
  have hskip := (List.mem_filter.mp h).2
  simp only [Bool.and_eq_true, decide_eq_true_eq, beq_iff_eq] at hskip
  exact ⟨hskip.1.1, hskip.2⟩

theorem all_of_areIpv6Parts {first second : Chars} {parts : List Chars}
    (h : areIpv6Parts (first :: second :: parts) = true) :
    first.all isHexDigit = true ∧ second.all isHexDigit = true := by
  unfold areIpv6Parts at h
  split at h
  · rw [Bool.and_eq_true] at h
    have hall := all_of_isHextets h.2
    exact ⟨hall first (by simp), hall second (by simp)⟩
  · rename_i skip hskips
    obtain ⟨hpos, hempty⟩ := of_mem_skips (hskips ▸ List.mem_singleton_self skip)
    split at h
    · rename_i hi lo hhi hlo
      have hall := all_of_hextets hhi
      -- the second part is in front of the skip, or it is the empty part itself
      obtain ⟨skip, rfl⟩ := Nat.exists_eq_succ_of_ne_zero (Nat.pos_iff_ne_zero.mp hpos)
      refine ⟨hall first (by simp), ?_⟩
      cases skip with
      | zero =>
        obtain rfl : second = [] := by simpa using hempty
        rfl
      | succ skip => exact hall second (by simp)
    · cases h
  · cases h

/-- The IPv4 address at the end of an address is not one of its first two parts. -/
theorem ipv6Parts_cons {first second third : Chars} {parts found : List Chars}
    (h : ipv6Parts (first :: second :: third :: parts) = some found) :
    ∃ others, found = first :: second :: others := by
  unfold ipv6Parts at h
  split at h
  · split at h
    · exact ⟨third :: parts, (Option.some.inj h).symm⟩
    · split at h
      · obtain rfl := Option.some.inj h
        exact ⟨_, rfl⟩
      · cases h
  · exact ⟨third :: parts, (Option.some.inj h).symm⟩

theorem hasHextets_of_isIpv6 (h : isIpv6 s = true) : HasHextets s := by
  simp only [isIpv6, Bool.and_eq_true, decide_eq_true_eq] at h
  obtain ⟨⟨-, hlength⟩, hparts⟩ := h
  rw [Option.any_eq_true] at hparts
  obtain ⟨found, hfound, hare⟩ := hparts
  have hwhole : [':'].intercalate ((partition '%' s).1.splitOn ':') = (partition '%' s).1 :=
    List.intercalate_splitOn ':'
  match hsplit : (partition '%' s).1.splitOn ':' with
  | [] | [_] | [_, _] =>
    rw [hsplit] at hlength
    simp at hlength
  | first :: second :: third :: parts =>
    rw [hsplit] at hfound hwhole
    obtain ⟨others, rfl⟩ := ipv6Parts_cons hfound
    obtain ⟨hfirst, hsecond⟩ := all_of_areIpv6Parts hare
    refine ⟨first, second, [':'].intercalate (third :: parts) ++ s.dropWhile (· ≠ '%'), ?_,
      hfirst, hsecond⟩
    have hs : (partition '%' s).1 ++ s.dropWhile (· ≠ '%') = s := List.takeWhile_append_dropWhile
    refine hs.symm.trans ?_
    rw [← hwhole]
    simp [List.intercalate]

theorem isPlainHost_no_colon (h : IsPlainHost s) : ':' ∉ s := fun hcolon =>
  absurd (h.plain ':' hcolon) (by decide)

theorem colon_of_hasHextets (h : HasHextets s) : ':' ∈ s := by
  obtain ⟨first, second, rest, rfl, -⟩ := h
  exact List.mem_append_right _ List.mem_cons_self

theorem ne_of_all_isHexDigit {part : Chars} (h : part.all isHexDigit = true) {d : Char}
    (hd : isHexDigit d = false) : d ∉ part := by
  intro hmem
  rw [List.all_eq_true.mp h d hmem] at hd
  cases hd

end Hosts

section Unbracketed

variable {unicode : Unicode} {first second rest : Chars}

/-- An IPv6 address without its brackets still stands in front of the path. -/
theorem netloc_of_hextets {scheme : Chars} {parts : SplitResult} (hscheme : scheme ∈ schemes)
    (hfirst : first.all isHexDigit = true) (hsecond : second.all isHexDigit = true)
    (h : urlsplit unicode
      (scheme ++ ':' :: '/' :: '/' :: (first ++ ':' :: (second ++ ':' :: rest))) = some parts) :
    bracketsChecked parts.netloc = true ∧
      ∃ more, parts.netloc = first ++ ':' :: (second ++ ':' :: more) := by
  have hkept : ∀ p : Char → Bool, (∀ c, p c = true → isHexDigit c = false) →
      ∀ part : Chars, part.all isHexDigit = true → ∀ c ∈ part, (!p c) = true := by
    intro p hp part hpart c hc
    cases hpc : p c with
    | false => rfl
    | true => exact absurd hc (ne_of_all_isHexDigit hpart (hp c hpc))
  have hsafe := hkept isUnsafe fun c hc => by
    simp only [isUnsafe, Bool.or_eq_true, decide_eq_true_eq] at hc
    rcases hc with (rfl | rfl) | rfl <;> rfl
  have hdelimiter := hkept isDelimiter fun c hc => by
    simp only [isDelimiter, Bool.or_eq_true, decide_eq_true_eq] at hc
    rcases hc with (rfl | rfl) | rfl <;> rfl
  rw [urlsplit_web hscheme] at h
  dsimp only at h
  split at h
  · rename_i hchecked
    obtain rfl := Option.some.inj h
    refine ⟨(Bool.and_eq_true _ _ ▸ hchecked).1, (rest.filter (!isUnsafe ·)).takeWhile (!isDelimiter ·), ?_⟩
    dsimp only
    rw [List.filter_append, List.filter_eq_self.mpr (hsafe first hfirst), List.filter_cons_of_pos rfl,
      List.filter_append, List.filter_eq_self.mpr (hsafe second hsecond), List.filter_cons_of_pos rfl,
      List.takeWhile_append_of_pos (hdelimiter first hfirst), List.takeWhile_cons_of_pos rfl,
      List.takeWhile_append_of_pos (hdelimiter second hsecond), List.takeWhile_cons_of_pos rfl]
  · cases h

/-- What follows the first colon of an IPv6 address is no port. -/
theorem port_of_hextets {parts : SplitResult} (hfirst : first.all isHexDigit = true)
    (hnetloc : parts.netloc = first ++ ':' :: (second ++ ':' :: rest))
    (hchecked : bracketsChecked parts.netloc = true) (huser : '@' ∉ parts.netloc) :
    parts.port = none := by
  -- a bracket would not be the first character of the host
  have hopen : '[' ∉ parts.netloc := by
    intro hopen
    rw [bracketsChecked, if_pos hopen, Bool.and_eq_true, isBracketedNetloc,
      rpartition_of_not_mem huser, if_pos hopen] at hchecked
    simp only [Bool.and_eq_true, decide_eq_true_eq] at hchecked
    have hnone := hchecked.2.1.1
    have hall : ∀ c ∈ first, decide (c ≠ '[') = true := fun c hc =>
      decide_eq_true fun heq => ne_of_all_isHexDigit hfirst (by decide) (heq ▸ hc)
    rw [partition, hnetloc, List.takeWhile_append_of_pos hall] at hnone
    exact absurd (List.append_eq_nil_iff.mp hnone).2 (by simp)
  have hport : parts.hostinfo.2 = second ++ ':' :: rest := by
    rw [SplitResult.hostinfo_of_plain huser hopen, hnetloc,
      partition_append (ne_of_all_isHexDigit hfirst (by decide))]
  have hcolon : ':' ∈ parts.hostinfo.2 := by
    rw [hport]
    exact List.mem_append_right _ List.mem_cons_self
  have hdigits : parts.hostinfo.2.all Char.isDigit = false := by
    rw [List.all_eq_false]
    exact ⟨':', hcolon, by decide⟩
  rw [SplitResult.port, if_neg (List.ne_nil_of_mem hcolon), hdigits]
  rfl

end Unbracketed

end Cygnus.Url
