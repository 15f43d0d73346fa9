import Rayfish.Lib.HashMap
import Rayfish.Lib.Text
import Rayfish.Mesh.Group
import Rayfish.Reject

/-!
# Magic DNS

The resolver behind the magic address (`dns/mod.rs`, `dns/resolver.rs`): it answers names
of the `.ray` zone and peers' short names from the roster, and hands what it declines to
the system's upstream servers. The DNS library and Unicode's case mapping are parameters
(`DnsLib`), the upstream servers are a function.

`kept_local_iff` says when a query for a name of the zone stays here: when the library
parses the message and the query is not a reverse lookup, or off-mesh names are declined
altogether. A reverse lookup (PTR) goes to the address parser first, which knows no `.ray`
name, and is then handed upstream (`ptr_handed_upstream`).
-/

namespace Rayfish

open Lib

structure Question where
  /-- The labels of the name, as they stand in the message. -/
  qname : List Bytes
  qtype : UInt16
  qclass : UInt16
  deriving DecidableEq

structure DnsPacket where
  id : UInt16
  questions : List Question
  /-- It carries an OPT record. -/
  opt : Bool

inductive RData where
  | aaaa (address : Ipv6Addr)
  | ptr (name : Name)
  | soa

inductive RCode where
  | noError
  | nameError

/-- An authoritative reply that carries the query's questions. -/
structure DnsReply where
  id : UInt16
  questions : List Question
  answers : List (List Bytes × RData)
  rcode : RCode
  /-- The zone's SOA stands in the authority section. -/
  authority : Bool
  opt : Bool

/-! ## The question of a message -/

/-- The labels at the start of `bytes`, up to the root, and what follows. A compressed name
does not count: the first question has nothing to point back to. -/
def readLabels : Nat → Bytes → Option (List Bytes × Bytes)
  | 0, _ => none
  | _ + 1, [] => none
  | fuel + 1, len :: rest =>
    if len = 0 then some ([], rest)
    else if 63 < len.toNat ∨ rest.length < len.toNat then none
    else (readLabels fuel (rest.drop len.toNat)).map fun (labels, left) =>
      (rest.take len.toNat :: labels, left)

/-- The first question of a DNS message. -/
def firstQuestion (data : Bytes) : Option Question :=
  if data.length < 12 ∨ word data 4 = 0 then none
  else
    match readLabels data.length (data.drop 12) with
    | some (labels, t₁ :: t₀ :: c₁ :: c₀ :: _) => some ⟨labels, be16 t₁ t₀, be16 c₁ c₀⟩
    | _ => none

/-- The library that parses and builds messages, how it prints a label, and `to_lowercase`.
What is assumed: the parser reports the question the message has, ASCII labels print as
they are, and lowercasing treats ASCII letters one by one, whatever precedes them. -/
structure DnsLib where
  parse : Bytes → Option DnsPacket
  build : DnsReply → Bytes
  lossy : Bytes → Name
  toLowercase : Name → Name
  parse_question : ∀ {data packet question}, parse data = some packet →
    firstQuestion data = some question → packet.questions.head? = some question
  lossy_ascii : ∀ label : Bytes, (∀ b ∈ label, b.toNat < 128) →
    lossy label = label.map fun b => Char.ofNat b.toNat
  lowercase_ascii : ∀ s : Name, (∀ c ∈ s, c.toNat < 128) → toLowercase s = s.map Char.toLower
  lowercase_suffix : ∀ s t : Name, (∀ c ∈ t, c.toNat < 128) →
    ∃ front, toLowercase (s ++ t) = front ++ t.map Char.toLower

def typeA : UInt16 := 1

def typeSoa : UInt16 := 6

def typePtr : UInt16 := 12

def typeAaaa : UInt16 := 28

def dnsDomain : Name := ['r', 'a', 'y']

def zoneSuffix : Name := '.' :: dnsDomain

abbrev HostnameTable := HashMap Name (HashMap Name Ipv6Addr)

abbrev ReverseLookupTable := Ipv6Addr → Option (Name × Name)

/-! ## Replies -/

section

variable (query : DnsPacket)

def replyTo : DnsReply :=
  ⟨query.id, query.questions, [], .noError, false, query.opt⟩

def makeAnswer (qname : List Bytes) (rdata : RData) : DnsReply :=
  { replyTo query with answers := [(qname, rdata)] }

def makeNegative (rcode : RCode) : DnsReply :=
  { replyTo query with rcode, authority := true }

def makeNxdomain : DnsReply := makeNegative query .nameError

def makeNodata : DnsReply := makeNegative query .noError

end

/-- Change the header of a query into that of a reply. -/
def rcodeReply (query : Bytes) (rcode : UInt8) : Option Bytes :=
  if query.length < 12 then none
  else some ((query.set 2 (byte query 2 ||| 0x80)).set 3 (0x80 ||| rcode))

def servfail (query : Bytes) : Option Bytes := rcodeReply query 2

def refused (query : Bytes) : Option Bytes := rcodeReply query 5

def truncated (query resp : Bytes) : Option Bytes :=
  match resp[3]? with
  | none => none
  | some flags =>
    (rcodeReply query (flags &&& 0x0f)).map fun reply => reply.set 2 (byte reply 2 ||| 0x02)

/-! ## Names -/

def resolveName (name suffix : Name) (table : HostnameTable) : Option Ipv6Addr :=
  match beforeEnd suffix name with
  | none => none
  | some stripped =>
    match (rsplitOnce '.' stripped).bind fun (hostname, network) =>
        (table.lookup network).map fun hosts => (hostname, hosts) with
    | some (hostname, hosts) => hosts.lookup hostname
    | none => table.entries.findSome? fun hosts => hosts.2.lookup stripped

def resolveBareNetworkName (name : Name) (table : HostnameTable) : Option Ipv6Addr :=
  match rsplitOnce '.' name with
  | none => none
  | some (hostname, network) => (table.lookup network).bind (·.lookup hostname)

/-- The four octets of a reversed IPv4 name; `none` also for four parts that are no octets. -/
def parsePtrV4 (parts : List Name) : Option Ipv4Addr :=
  match parts.mapM (parseUnsigned 256) with
  | some [d, c, b, a] => some (BitVec.ofNat 32 (((a * 256 + b) * 256 + c) * 256 + d))
  | _ => none

/-- Two nibbles of a reversed IPv6 name as one octet. A part can be too large for a nibble. -/
def ptrOctet (hi lo : Nat) : UInt8 := UInt8.ofNat hi <<< 4 ||| UInt8.ofNat lo

/-- Sixteen octets from 32 parts in network order. -/
def ptrOctets : List Name → Option Bytes
  | hi :: lo :: rest =>
    match parseHex 256 hi, parseHex 256 lo, ptrOctets rest with
    | some hi, some lo, some octets => some (ptrOctet hi lo :: octets)
    | _, _, _ => none
  | _ => some []

def parsePtrV6 (parts : List Name) : Option Ipv6Addr :=
  (ptrOctets parts.reverse).map fun octets => BitVec.ofNat 128 (beNat octets)

def parsePtrName (name : Name) : Option IpAddr :=
  let v6 :=
    match beforeEnd ".ip6.arpa".toList name with
    | none => none
    | some stripped =>
      if (stripped.splitOn '.').length = 32 then (parsePtrV6 (stripped.splitOn '.')).map .v6
      else none
  match beforeEnd ".in-addr.arpa".toList name with
  | none => v6
  | some stripped =>
    if (stripped.splitOn '.').length = 4 then (parsePtrV4 (stripped.splitOn '.')).map .v4 else v6

/-! ## The resolver -/

section

variable (lib : DnsLib)

/-- The name of a question as text, without trailing dots and in lower case. -/
def nameLower (question : Question) : Name :=
  lib.toLowercase ((['.'].intercalate (question.qname.map lib.lossy)).rdropWhile (· == '.'))

def inZone (name : Name) : Bool := name == dnsDomain || (beforeEnd zoneSuffix name).isSome

def handlePtrQuery (packet : DnsPacket) (question : Question) (name : Name)
    (reverse : ReverseLookupTable) : Option DnsReply :=
  match parsePtrName name with
  | some (.v6 ip) =>
    match reverse ip with
    | some (hostname, network) =>
      some (makeAnswer packet question.qname
        (.ptr (hostname ++ '.' :: network ++ zoneSuffix ++ ['.'])))
    | none => if segment0 ip &&& 0xfe00 = 0x0200 then some (makeNxdomain packet) else none
  | _ => none

def handleQueryWithShortNames (data : Bytes) (table : HostnameTable)
    (reverse : ReverseLookupTable) (shortNames : Bool) : Option DnsReply :=
  match lib.parse data with
  | none => none
  | some packet =>
    match packet.questions.head? with
    | none => none
    | some question =>
      let name := nameLower lib question
      if question.qtype = typePtr then handlePtrQuery packet question name reverse
      else if inZone name then
        if question.qtype = typeSoa then some (makeAnswer packet question.qname .soa)
        else
          match resolveName name zoneSuffix table with
          | none => some (makeNxdomain packet)
          | some v6 =>
            if question.qtype = typeA then some (makeNodata packet)
            else if question.qtype = typeAaaa then
              some (makeAnswer packet question.qname (.aaaa v6))
            else some (makeNodata packet)
      else if !shortNames || !(question.qtype == typeA || question.qtype == typeAaaa) then none
      else
        match resolveBareNetworkName name table with
        | none => none
        | some v6 =>
          if question.qtype = typeA then some (makeNodata packet)
          else some (makeAnswer packet question.qname (.aaaa v6))

def nxdomainIfInZone (data : Bytes) : Option DnsReply :=
  match lib.parse data with
  | none => none
  | some packet =>
    match packet.questions.head? with
    | none => none
    | some question =>
      if inZone (nameLower lib question) then some (makeNxdomain packet) else none

end

structure Resolver where
  table : HostnameTable
  reverse : ReverseLookupTable
  tunnelUpstreams : Option (List (IpAddr × UInt16))
  deferOffMesh : Bool
  shortNames : Bool

/-- A message built here, or bytes that are sent as they are. -/
inductive DnsMessage where
  | built (reply : DnsReply)
  | raw (bytes : Bytes)

def DnsMessage.bytes (lib : DnsLib) : DnsMessage → Bytes
  | .built reply => lib.build reply
  | .raw bytes => bytes

/-- The reply to a query, and whether the query was handed to the upstream servers. -/
structure Resolution where
  handed : Bool
  reply : Option DnsMessage

/-- `forward` is what the upstream servers answer. -/
def Resolver.resolve (r : Resolver) (lib : DnsLib) (forward : Bytes → Option Bytes)
    (query : Bytes) : Resolution :=
  match handleQueryWithShortNames lib query r.table r.reverse r.shortNames with
  | some answer => ⟨false, some (.built answer)⟩
  | none =>
    if r.deferOffMesh && r.tunnelUpstreams.isNone then
      ⟨false, ((nxdomainIfInZone lib query).map .built).or ((refused query).map .raw)⟩
    else
      match forward query with
      | some forwarded => ⟨true, some (.raw forwarded)⟩
      | none => ⟨true, (nxdomainIfInZone lib query).map .built⟩

/-- The largest message a reply carries. -/
def maxDnsPayload : Nat := 1280 - 40 - 8

inductive TunReply where
  | tcpRst (packet : Bytes)
  /-- The payload of a UDP reply. -/
  | udp (payload : Bytes)

/-- What is done with a packet to the magic address. -/
structure TunOutcome where
  handed : Bool
  sent : Option TunReply

def Resolver.handleTunQuery (r : Resolver) (lib : DnsLib) (forward : Bytes → Option Bytes)
    (pkt : Bytes) (info : PacketInfo) : TunOutcome :=
  if info.protocol = 6 then ⟨false, (buildTcpRst pkt info).map .tcpRst⟩
  else if info.protocol ≠ 17 then ⟨false, none⟩
  else if pkt.length < info.transportOffset + 8 then ⟨false, none⟩
  else
    let query := pkt.drop (info.transportOffset + 8)
    let resolution := r.resolve lib forward query
    match (resolution.reply.map (·.bytes lib)).or (servfail query) with
    | none => ⟨resolution.handed, none⟩
    | some resp =>
      if maxDnsPayload < resp.length then
        ⟨resolution.handed, (truncated query resp).map .udp⟩
      else ⟨resolution.handed, some (.udp resp)⟩

/-! ## What is asked of it -/

def asciiLower (b : UInt8) : UInt8 := if 65 ≤ b ∧ b ≤ 90 then b + 32 else b

/-- The last label of the name is `ray`, in any case. -/
def InRay (question : Question) : Prop :=
  ∃ front last, question.qname = front ++ [last] ∧ last.map asciiLower = [114, 97, 121]

/-- An answer, NODATA or NXDOMAIN. -/
inductive LocalReply (packet : DnsPacket) : DnsReply → Prop
  | answer (qname : List Bytes) (rdata : RData) : LocalReply packet (makeAnswer packet qname rdata)
  | nodata : LocalReply packet (makeNodata packet)
  | nxdomain : LocalReply packet (makeNxdomain packet)

/-- The query is answered here or dropped. -/
def KeptLocal (resolution : Resolution) : Prop :=
  resolution.handed = false ∧ (resolution.reply = none ∨
    ∃ packet reply, LocalReply packet reply ∧ resolution.reply = some (.built reply))

/-- Names outside the zone are left to the next server of the host. -/
def Resolver.declines (r : Resolver) : Bool := r.deferOffMesh && r.tunnelUpstreams.isNone

/-! ## Names of the zone -/

theorem intercalate_concat {sep last : Name} {front : List Name} (filled : front ≠ []) :
    sep.intercalate (front ++ [last]) = sep.intercalate front ++ (sep ++ last) := by
  induction front with
  | nil => exact absurd rfl filled
  | cons a front ih =>
    cases front with
    | nil => simp
    | cons b front =>
      have rest := ih (List.cons_ne_nil b front)
      simp only [List.intercalate, List.cons_append, List.intersperse_cons_cons,
        List.flatten_cons, List.append_assoc] at rest ⊢
      rw [rest]

theorem asciiLower_cases (b : UInt8) : (asciiLower b = 114 → b = 82 ∨ b = 114) ∧
    (asciiLower b = 97 → b = 65 ∨ b = 97) ∧ (asciiLower b = 121 → b = 89 ∨ b = 121) := by
  have all : ∀ n < 256, (asciiLower (.ofNat n) = 114 → UInt8.ofNat n = 82 ∨ UInt8.ofNat n = 114) ∧
      (asciiLower (.ofNat n) = 97 → UInt8.ofNat n = 65 ∨ UInt8.ofNat n = 97) ∧
      (asciiLower (.ofNat n) = 121 → UInt8.ofNat n = 89 ∨ UInt8.ofNat n = 121) := by
    decide +kernel
  have here := all b.toNat (UInt8.toNat_lt b)
  rwa [UInt8.ofNat_toNat] at here

/-- The last label as text: its letters are ASCII, and the last one is no dot. -/
theorem last_label {last : Bytes} (ray : last.map asciiLower = [114, 97, 121]) :
    (∀ b ∈ last, b.toNat < 128) ∧ ∃ text : Name, (last.map fun b => Char.ofNat b.toNat) = text ∧
      (∀ c ∈ text, c.toNat < 128) ∧ text.map Char.toLower = dnsDomain ∧
      ∀ front : Name, (front ++ text).rdropWhile (· == '.') = front ++ text := by
  obtain ⟨r, rest, rfl, isR, ray⟩ := List.map_eq_cons_iff.mp ray
  obtain ⟨a, rest, rfl, isA, ray⟩ := List.map_eq_cons_iff.mp ray
  obtain ⟨y, rest, rfl, isY, ray⟩ := List.map_eq_cons_iff.mp ray
  obtain rfl := List.map_eq_nil_iff.mp ray
  have each : ∀ {α : Type} (P : α → Prop) (x y z : α), P x → P y → P z → ∀ b ∈ [x, y, z], P b := by
    intro α P x y z atX atY atZ
    simp [atX, atY, atZ]
  have solid : ∀ (front : Name) (c₁ c₂ c₃ : Char), c₃ ≠ '.' →
      (front ++ [c₁, c₂, c₃]).rdropWhile (· == '.') = front ++ [c₁, c₂, c₃] := by
    intro front c₁ c₂ c₃ letter
    simpa using letter
  rcases (asciiLower_cases r).1 isR with rfl | rfl <;>
    rcases (asciiLower_cases a).2.1 isA with rfl | rfl <;>
    rcases (asciiLower_cases y).2.2 isY with rfl | rfl <;>
    exact ⟨each _ _ _ _ (by decide) (by decide) (by decide), _, rfl,
      each _ _ _ _ (by decide) (by decide) (by decide), by decide,
      fun front => solid front _ _ _ (by decide)⟩

section

variable {lib : DnsLib}

/-- The text of a name of the zone is recognised. -/
theorem inZone_nameLower {question : Question} (ray : InRay question) :
    inZone (nameLower lib question) = true := by
  obtain ⟨front, last, labels, ray⟩ := ray
  obtain ⟨ascii, text, spelled, plain, lower, solid⟩ := last_label ray
  rw [← lib.lossy_ascii last ascii] at spelled
  rw [nameLower, labels, List.map_append, List.map_cons, List.map_nil, spelled, inZone,
    Bool.or_eq_true]
  by_cases top : front = []
  · left
    have same := solid []
    rw [List.nil_append] at same
    rw [top, List.map_nil, List.nil_append, List.intercalate_singleton, same,
      lib.lowercase_ascii text plain, lower]
    rfl
  · right
    have more : front.map lib.lossy ≠ [] := fun none => top (List.map_eq_nil_iff.mp none)
    have dotted : ∀ c ∈ '.' :: text, c.toNat < 128 := by
      intro c member
      rcases List.mem_cons.mp member with rfl | letter
      · decide
      · exact plain c letter
    obtain ⟨front', lowered⟩ := lib.lowercase_suffix (['.'].intercalate (front.map lib.lossy))
      ('.' :: text) dotted
    have same := solid (['.'].intercalate (front.map lib.lossy) ++ ['.'])
    rw [List.append_assoc, List.singleton_append] at same
    rw [intercalate_concat more, List.singleton_append, same, lowered, beforeEnd_isSome_iff,
      List.map_cons, lower]
    exact List.suffix_append front' zoneSuffix

/-- A name of the zone ends with a `y`. -/
theorem getLast_of_inZone (zone : inZone name = true) : name.getLast? = some 'y' := by
  rw [inZone, Bool.or_eq_true] at zone
  rcases zone with top | below
  · rw [beq_iff_eq.mp top]
    rfl
  · obtain ⟨front, rfl⟩ := beforeEnd_isSome_iff.mp below
    rw [List.getLast?_append]
    rfl

/-- It is not the name of an address. -/
theorem parsePtrName_of_inZone (zone : inZone name = true) : parsePtrName name = none := by
  have other : ∀ ending : Name, ending.getLast? = some 'a' → beforeEnd ending name = none := by
    intro ending last
    rw [← Option.not_isSome_iff_eq_none, beforeEnd_isSome_iff]
    rintro ⟨front, rfl⟩
    have letter := getLast_of_inZone zone
    rw [List.getLast?_append, last] at letter
    cases letter
  rw [parsePtrName, other _ rfl, other _ rfl]

/-! ## The zone stays here -/

section

variable {data : Bytes} {packet : DnsPacket} {question : Question} (r : Resolver)

section

variable (parsed : lib.parse data = some packet) (first : packet.questions.head? = some question)

include parsed first

/-- Every query of the zone but a reverse lookup is answered. -/
theorem handleQuery_of_inZone
    (zone : inZone (nameLower lib question) = true) (forward : question.qtype ≠ typePtr) :
    ∃ reply, handleQueryWithShortNames lib data r.table r.reverse r.shortNames = some reply ∧
      LocalReply packet reply := by
  rw [handleQueryWithShortNames, parsed]
  dsimp only
  rw [first]
  dsimp only
  rw [if_neg forward, if_pos zone]
  by_cases soa : question.qtype = typeSoa
  · rw [if_pos soa]
    exact ⟨_, rfl, .answer _ _⟩
  · rw [if_neg soa]
    cases resolveName (nameLower lib question) zoneSuffix r.table with
    | none => exact ⟨_, rfl, .nxdomain⟩
    | some v6 =>
      dsimp only
      by_cases a : question.qtype = typeA
      · rw [if_pos a]
        exact ⟨_, rfl, .nodata⟩
      · rw [if_neg a]
        by_cases aaaa : question.qtype = typeAaaa
        · rw [if_pos aaaa]
          exact ⟨_, rfl, .answer _ _⟩
        · rw [if_neg aaaa]
          exact ⟨_, rfl, .nodata⟩

/-- A reverse lookup of a name of the zone is declined. -/
theorem handleQuery_of_ptr
    (zone : inZone (nameLower lib question) = true) (ptr : question.qtype = typePtr) :
    handleQueryWithShortNames lib data r.table r.reverse r.shortNames = none := by
  rw [handleQueryWithShortNames, parsed]
  dsimp only
  rw [first]
  dsimp only
  rw [if_pos ptr, handlePtrQuery, parsePtrName_of_inZone zone]

end

theorem handleQuery_of_unparsed (unparsed : lib.parse data = none) :
    handleQueryWithShortNames lib data r.table r.reverse r.shortNames = none := by
  rw [handleQueryWithShortNames, unparsed]

theorem nxdomain_of_inZone (parsed : lib.parse data = some packet)
    (first : packet.questions.head? = some question)
    (zone : inZone (nameLower lib question) = true) :
    nxdomainIfInZone lib data = some (makeNxdomain packet) := by
  rw [nxdomainIfInZone, parsed]
  dsimp only
  rw [first]
  exact if_pos zone

theorem nxdomain_of_unparsed (unparsed : lib.parse data = none) :
    nxdomainIfInZone lib data = none := by
  rw [nxdomainIfInZone, unparsed]

end

section

variable {r : Resolver} {forward : Bytes → Option Bytes} {query : Bytes}

section

variable (declined : handleQueryWithShortNames lib query r.table r.reverse r.shortNames = none)

include declined

/-- What the zone handler declines is handed upstream, unless off-mesh names are declined. -/
theorem resolve_handed : (r.resolve lib forward query).handed = !r.declines := by
  rw [Resolver.resolve, declined]
  rw [Resolver.declines]
  cases r.deferOffMesh && r.tunnelUpstreams.isNone with
  | true => rfl
  | false =>
    cases forward query with
    | some _ | none => rfl

theorem resolve_declined (declines : r.declines = true) :
    r.resolve lib forward query =
      ⟨false, ((nxdomainIfInZone lib query).map .built).or ((refused query).map .raw)⟩ := by
  rw [Resolver.resolve, declined]
  exact if_pos declines

end

theorem resolve_answered
    (answered : handleQueryWithShortNames lib query r.table r.reverse r.shortNames = some reply) :
    r.resolve lib forward query = ⟨false, some (.built reply)⟩ := by
  rw [Resolver.resolve, answered]

theorem length_of_firstQuestion (first : firstQuestion query = some question) :
    12 ≤ query.length := by
  rw [firstQuestion] at first
  by_contra short
  rw [if_pos (.inl (Nat.lt_of_not_le short))] at first
  cases first

theorem handleTunQuery_handed (handed : (r.handleTunQuery lib forward pkt info).handed = true) :
    info.protocol = 17 ∧
      (r.resolve lib forward (pkt.drop (info.transportOffset + 8))).handed = true := by
  rw [Resolver.handleTunQuery] at handed
  by_cases tcp : info.protocol = 6
  · rw [if_pos tcp] at handed
    cases handed
  · rw [if_neg tcp] at handed
    by_cases udp : info.protocol = 17
    · refine ⟨udp, ?_⟩
      rw [if_neg (not_not.mpr udp)] at handed
      split at handed
      · cases handed
      · dsimp only at handed
        split at handed
        · exact handed
        · split at handed
          · exact handed
          · exact handed
    · rw [if_pos udp] at handed
      cases handed

end

/-- A query for a name of the zone is kept local, with an answer, NODATA or NXDOMAIN, exactly
if the library parses the message and it is not a reverse lookup or off-mesh names are
declined. It is handed upstream exactly if they are not declined and it is a reverse lookup
or does not parse. A packet is handed upstream only as a UDP query. -/
theorem kept_local_iff (lib : DnsLib) (r : Resolver) (forward : Bytes → Option Bytes)
    {query : Bytes} {question : Question} (first : firstQuestion query = some question)
    (ray : InRay question) :
    (KeptLocal (r.resolve lib forward query) ↔
      (lib.parse query).isSome ∧ (question.qtype ≠ typePtr ∨ r.declines = true)) ∧
    ((r.resolve lib forward query).handed = true ↔
      r.declines = false ∧ (question.qtype = typePtr ∨ lib.parse query = none)) ∧
    ∀ pkt info, (r.handleTunQuery lib forward pkt info).handed = true →
      info.protocol = 17 ∧
        (r.resolve lib forward (pkt.drop (info.transportOffset + 8))).handed = true := by
  have zone : inZone (nameLower lib question) = true := inZone_nameLower ray
  refine ⟨?_, ?_, fun pkt info => handleTunQuery_handed⟩
  · cases parsed : lib.parse query with
    | none =>
      refine iff_of_false ?_ fun ⟨parses, _⟩ => nomatch parses
      rintro ⟨kept, reply⟩
      have declined := handleQuery_of_unparsed r parsed
      have declines : r.declines = true := by
        rw [resolve_handed declined] at kept
        simpa using kept
      -- the message is refused as it came
      rw [resolve_declined declined declines, nxdomain_of_unparsed parsed, refused, rcodeReply,
        if_neg (Nat.not_lt.mpr (length_of_firstQuestion first))] at reply
      rcases reply with dropped | ⟨packet, reply, _, built⟩
      · cases dropped
      · cases built
    | some packet =>
      have asked := lib.parse_question parsed first
      rw [Option.isSome_some, eq_self, true_and]
      by_cases ptr : question.qtype = typePtr
      · have declined := handleQuery_of_ptr r parsed asked zone ptr
        constructor
        · rintro ⟨kept, _⟩
          rw [resolve_handed declined] at kept
          right
          simpa using kept
        · intro declines
          have declines := declines.resolve_left (not_not.mpr ptr)
          rw [resolve_declined declined declines, nxdomain_of_inZone parsed asked zone]
          exact ⟨rfl, .inr ⟨packet, _, .nxdomain, rfl⟩⟩
      · obtain ⟨reply, answered, isLocal⟩ := handleQuery_of_inZone r parsed asked zone ptr
        rw [resolve_answered answered]
        exact iff_of_true ⟨rfl, .inr ⟨packet, reply, isLocal, rfl⟩⟩ (.inl ptr)
  · cases parsed : lib.parse query with
    | none =>
      rw [resolve_handed (handleQuery_of_unparsed r parsed), Bool.not_eq_true']
      exact (and_iff_left (.inr rfl)).symm
    | some packet =>
      have asked := lib.parse_question parsed first
      by_cases ptr : question.qtype = typePtr
      · rw [resolve_handed (handleQuery_of_ptr r parsed asked zone ptr), Bool.not_eq_true']
        exact (and_iff_left (.inl ptr)).symm
      · obtain ⟨reply, answered, _⟩ := handleQuery_of_inZone r parsed asked zone ptr
        rw [resolve_answered answered]
        exact iff_of_false nofun fun ⟨_, either⟩ => either.elim ptr nofun

end

/-- A library that parses the first question and treats text as ASCII. -/
def plainDns : DnsLib where
  parse data := (firstQuestion data).map fun question => ⟨word data 0, [question], false⟩
  build _ := []
  lossy label := label.map fun b => Char.ofNat b.toNat
  toLowercase s := s.map Char.toLower
  parse_question := by
    intro data packet question parsed first
    rw [first] at parsed
    cases parsed
    rfl
  lossy_ascii _ _ := rfl
  lowercase_ascii _ _ := rfl
  lowercase_suffix s t _ := ⟨s.map Char.toLower, List.map_append⟩

/-- A query for `a.RAY` of the given type, class IN. -/
def rayQuery (qtype : UInt8) : Bytes :=
  [0, 7, 1, 0, 0, 1, 0, 0, 0, 0, 0, 0, 1, 97, 3, 82, 65, 89, 0, 0, qtype, 0, 1]

def rayQuestion (qtype : UInt16) : Question := ⟨[[97], [82, 65, 89]], qtype, 1⟩

/-- A resolver with an empty roster that forwards names outside the zone. -/
def emptyResolver : Resolver := ⟨∅, fun _ => none, none, false, true⟩

/-- An address query for a name nobody holds is answered here. -/
theorem kept_local_aaaa : KeptLocal (emptyResolver.resolve plainDns some (rayQuery 28)) :=
  ((kept_local_iff plainDns emptyResolver some
    (by decide : firstQuestion (rayQuery 28) = some (rayQuestion 28))
    ⟨[[97]], [82, 65, 89], rfl, by decide⟩).1).mpr ⟨by decide, .inl (by decide)⟩

/-- A reverse lookup for `a.ray`, a well-formed query, is handed upstream. -/
theorem ptr_handed_upstream :
    firstQuestion (rayQuery 12) = some (rayQuestion 12) ∧ InRay (rayQuestion 12) ∧
      (plainDns.parse (rayQuery 12)).isSome ∧
      (emptyResolver.resolve plainDns some (rayQuery 12)).handed = true :=
  ⟨by decide, ⟨[[97]], [82, 65, 89], rfl, by decide⟩, by decide, by decide⟩

end Rayfish
