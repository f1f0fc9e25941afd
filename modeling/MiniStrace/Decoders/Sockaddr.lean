/-
  Decoders/Sockaddr.lean --- which socket addresses `format_sockaddr` tells apart.

  THE KERNEL'S NAMES.  A pathname address names the file of its path, which ends at the
  first NUL.  An abstract address starts with a NUL, and its name is all the bytes that
  follow, as many as the length says.

  THE TEXT.  Both are printed as C strings, the abstract ones after an `@`.  So a pathname
  is kept, an abstract name is kept up to its first NUL, and a pathname that starts with
  an `@` looks like an abstract name.  The internet addresses are printed number by number.
-/
import MiniStrace.Decoders.Embedded
import MiniStrace.Lib.PrefixCode

set_option autoImplicit false

namespace MiniStrace

open CLib OutBuf

/-! ## Addresses -/

/-- The tracee passes the bytes `bs` as a socket address, and all of them can be read. -/
structure Passed (m : Mem) (addr : Word) (bs : Text) : Prop where
  addr_ne : addr ≠ 0
  mapped : WordsMapped m addr bs.length
  bytes : m.bytes addr bs.length = bs
  family : 2 ≤ bs.length
  short : bs.length ≤ 128

theorem Passed.text {m : Mem} {addr : Word} {bs : Text} (h : Passed m addr bs) (host : Host) :
    sockaddrText host m addr bs.length = sockaddrBytesText host bs := by
  have hfamily := h.family
  have hshort := h.short
  have hwant : sockaddrWant bs.length = bs.length := by
    unfold sockaddrWant
    dsimp only
    split_ifs <;> omega
  have hread : readChildRaw m addr (sockaddrWant bs.length) = bs := by
    rw [hwant, readChildRaw_whole h.mapped, h.bytes]
  rw [sockaddrText, if_neg h.addr_ne]
  dsimp only
  rw [hread, if_neg (by omega)]

/-- The argument slot that shows the address. -/
def sockaddrSlot (host : Host) (m : Mem) (addr : Word) (bs : Text) : Text :=
  (formatSockaddr host m addr bs.length (new strArgBufLen host.junk)).str

theorem Passed.slot {m : Mem} {addr : Word} {bs : Text} (h : Passed m addr bs) (host : Host)
    (hz : ∀ c ∈ sockaddrBytesText host bs, c ≠ 0)
    (hlen : (sockaddrBytesText host bs).length < strArgBufLen) :
    sockaddrSlot host m addr bs = sockaddrBytesText host bs := by
  rw [sockaddrSlot, formatSockaddr_str, h.text, cut_of_lt hz hlen]

/-! ## `AF_UNIX` -/

/-- The address of a file. -/
def IsPathname (bs : Text) : Prop := field bs 0 2 = 1 ∧ 3 ≤ bs.length ∧ bs.getD 2 0 ≠ 0

/-- An address of the abstract namespace. -/
def IsAbstract (bs : Text) : Prop := field bs 0 2 = 1 ∧ 3 ≤ bs.length ∧ bs.getD 2 0 = 0

/-- The path of a pathname address. -/
def pathOf (bs : Text) : Text := cstr (bs.drop 2)

/-- The name of an abstract address. -/
def nameOf (bs : Text) : Text := bs.drop 3

/-- The two addresses name different sockets. -/
def DifferentUnix (bs bs' : Text) : Prop :=
  (IsPathname bs ∧ IsPathname bs' ∧ pathOf bs ≠ pathOf bs') ∨
    (IsAbstract bs ∧ IsAbstract bs' ∧ nameOf bs ≠ nameOf bs') ∨
    (IsPathname bs ∧ IsAbstract bs') ∨ (IsAbstract bs ∧ IsPathname bs')

/-- The difference survives the printing: abstract names differ before a NUL, and a path is
not the abstract name with an `@` before it. -/
def UnixKept (bs bs' : Text) : Prop :=
  (IsAbstract bs → IsAbstract bs' → cstr (nameOf bs) ≠ cstr (nameOf bs')) ∧
    (IsPathname bs → IsAbstract bs' → pathOf bs ≠ 0x40 :: cstr (nameOf bs')) ∧
    (IsAbstract bs → IsPathname bs' → 0x40 :: cstr (nameOf bs) ≠ pathOf bs')

/-- What is printed between the quotes. -/
def sunPathText (bs : Text) : Text :=
  if bs.getD 2 0 = 0 then 0x40 :: cstr (nameOf bs) else pathOf bs

theorem sockaddrBytesText_unix (host : Host) {bs : Text} (hfamily : field bs 0 2 = 1)
    (hlen : 3 ≤ bs.length) : sockaddrBytesText host bs =
      lit "\x7bsa_family=AF_UNIX, sun_path=\"" ++ sunPathText bs ++ lit "\"\x7d" := by
  have hat : lit "\x7bsa_family=AF_UNIX, sun_path=\"@" =
      lit "\x7bsa_family=AF_UNIX, sun_path=\"" ++ [0x40] := by with_unfolding_all decide
  have hpathLen : (if bs.length > 2 then bs.length - 2 else 0) = bs.length - 2 := if_pos (by omega)
  -- the precision is the number of bytes that are there
  have hname : cstrPrec (bs.length - 2 - 1) (bs.drop 3) = cstr (nameOf bs) := by
    rw [cstrPrec, List.take_of_length_le (by rw [List.length_drop]; omega), nameOf]
  have hpath : cstrPrec (bs.length - 2) (bs.drop 2) = pathOf bs := by
    rw [cstrPrec, List.take_of_length_le (by rw [List.length_drop]), pathOf]
  unfold sockaddrBytesText sunPathText
  dsimp only
  rw [if_neg (by omega), if_neg (by omega), if_pos hfamily, hpathLen, hname, hpath, hat]
  by_cases hnul : bs.getD 2 0 = 0
  · rw [if_pos ⟨by omega, hnul⟩, if_pos hnul]
    simp
  · rw [if_neg fun h => hnul h.2, if_neg hnul]

theorem Passed.slot_unix {m : Mem} {addr : Word} {bs : Text} (h : Passed m addr bs) (host : Host)
    (hfamily : field bs 0 2 = 1) (hlen : 3 ≤ bs.length) : sockaddrSlot host m addr bs =
      lit "\x7bsa_family=AF_UNIX, sun_path=\"" ++ sunPathText bs ++ lit "\"\x7d" := by
  have hlit : Clean (lit "\x7bsa_family=AF_UNIX, sun_path=\"") ∧ Clean (lit "\"\x7d") ∧
      (lit "\x7bsa_family=AF_UNIX, sun_path=\"").length = 30 ∧ (lit "\"\x7d").length = 2 := by
    with_unfolding_all decide
  have hz : ∀ c ∈ sunPathText bs, c ≠ 0 := by
    intro c hc
    unfold sunPathText at hc
    split at hc
    · rcases List.mem_cons.mp hc with rfl | hc
      · decide
      · exact cstr_ne_zero hc
    · exact cstr_ne_zero hc
  have hpath : (sunPathText bs).length ≤ bs.length := by
    have hname := length_cstr_le (bs.drop 3)
    have hpath := length_cstr_le (bs.drop 2)
    rw [List.length_drop] at hname hpath
    unfold sunPathText
    split
    · rw [List.length_cons, nameOf]
      omega
    · rw [pathOf]
      omega
  have hmax : strArgBufLen = 1024 := rfl
  have hshort := h.short
  rw [← sockaddrBytesText_unix host hfamily hlen]
  refine h.slot host ?_ ?_
  · rw [sockaddrBytesText_unix host hfamily hlen]
    intro c hc
    simp only [List.mem_append] at hc
    rcases hc with (hc | hc) | hc
    · exact hlit.1.ne_zero hc
    · exact hz c hc
    · exact hlit.2.1.ne_zero hc
  · rw [sockaddrBytesText_unix host hfamily hlen]
    simp only [List.length_append, hlit]
    omega

theorem sunPathText_pathname {bs : Text} (h : IsPathname bs) : sunPathText bs = pathOf bs :=
  if_neg h.2.2

theorem sunPathText_abstract {bs : Text} (h : IsAbstract bs) :
    sunPathText bs = 0x40 :: cstr (nameOf bs) := if_pos h.2.2

/-- Two different addresses are told apart exactly when the difference survives. -/
theorem sunPathText_ne_iff {bs bs' : Text} (h : DifferentUnix bs bs') :
    sunPathText bs ≠ sunPathText bs' ↔ UnixKept bs bs' := by
  have hexcl : ∀ {t : Text}, IsPathname t → ¬IsAbstract t := fun hp ha => hp.2.2 ha.2.2
  unfold UnixKept
  rcases h with ⟨hp, hp', hne⟩ | ⟨ha, ha', -⟩ | ⟨hp, ha'⟩ | ⟨ha, hp'⟩
  · rw [sunPathText_pathname hp, sunPathText_pathname hp']
    exact iff_of_true hne ⟨fun ha => absurd ha (hexcl hp), fun _ ha' => absurd ha' (hexcl hp'),
      fun ha => absurd ha (hexcl hp)⟩
  · rw [sunPathText_abstract ha, sunPathText_abstract ha', ne_eq, List.cons.injEq]
    simp only [true_and]
    exact ⟨fun hne => ⟨fun _ _ => hne, fun hp => absurd ha (hexcl hp), fun _ hp' =>
      absurd ha' (hexcl hp')⟩, fun hkept => hkept.1 ha ha'⟩
  · rw [sunPathText_pathname hp, sunPathText_abstract ha']
    exact ⟨fun hne => ⟨fun ha => absurd ha (hexcl hp), fun _ _ => hne, fun ha =>
      absurd ha (hexcl hp)⟩, fun hkept => hkept.2.1 hp ha'⟩
  · rw [sunPathText_abstract ha, sunPathText_pathname hp']
    exact ⟨fun hne => ⟨fun _ ha' => absurd ha' (hexcl hp'), fun hp => absurd ha (hexcl hp),
      fun _ _ => hne⟩, fun hkept => hkept.2.2 ha hp'⟩

theorem slot_unix_ne_iff {host : Host} {m m' : Mem} {addr addr' : Word} {bs bs' : Text}
    (h : Passed m addr bs) (h' : Passed m' addr' bs') (hdiff : DifferentUnix bs bs') :
    sockaddrSlot host m addr bs ≠ sockaddrSlot host m' addr' bs' ↔ UnixKept bs bs' := by
  have hunix : (field bs 0 2 = 1 ∧ 3 ≤ bs.length) ∧ field bs' 0 2 = 1 ∧ 3 ≤ bs'.length := by
    unfold DifferentUnix IsPathname IsAbstract at hdiff
    tauto
  rw [← sunPathText_ne_iff hdiff, h.slot_unix host hunix.1.1 hunix.1.2,
    h'.slot_unix host hunix.2.1 hunix.2.2, ne_eq, List.append_left_inj, List.append_right_inj]

/-! ## `AF_INET` and `AF_INET6` -/

/-- `inet_ntop` writes a C string into its array of 46 characters, and no two addresses have
the same string. -/
structure Host.NtopFaithful (host : Host) : Prop where
  total : ∀ ip : Text, ip.length = 16 → (host.inetNtop6 ip).isSome
  injective : ∀ ip ip' : Text, ip.length = 16 → ip'.length = 16 →
    host.inetNtop6 ip = host.inetNtop6 ip' → ip = ip'
  string : ∀ ip t, host.inetNtop6 ip = some t → (∀ c ∈ t, c ≠ 0) ∧ t.length < 46

/-- The bytes of the port. -/
def portOf (bs : Text) : Text := (bs.drop 2).take 2

/-- The bytes of an `AF_INET` address. -/
def ip4Of (bs : Text) : Text := (bs.drop 4).take 4

/-- The bytes of an `AF_INET6` address. -/
def ip6Of (bs : Text) : Text := (bs.drop 8).take 16

def DifferentInet (bs bs' : Text) : Prop :=
  (field bs 0 2 = 2 ∧ 8 ≤ bs.length) ∧ (field bs' 0 2 = 2 ∧ 8 ≤ bs'.length) ∧
    (portOf bs ≠ portOf bs' ∨ ip4Of bs ≠ ip4Of bs')

def DifferentInet6 (bs bs' : Text) : Prop :=
  (field bs 0 2 = 10 ∧ 24 ≤ bs.length) ∧ (field bs' 0 2 = 10 ∧ 24 ≤ bs'.length) ∧
    (portOf bs ≠ portOf bs' ∨ ip6Of bs ≠ ip6Of bs')

/-- The number that is printed for the port. -/
def portNumber (bs : Text) : Nat := (bs.getD 2 0).toNat * 2 ^ 8 + (bs.getD 3 0).toNat

theorem portNumber_lt (bs : Text) : portNumber bs < 10 ^ 5 := by
  have hhigh := (bs.getD 2 0).toNat_lt
  have hlow := (bs.getD 3 0).toNat_lt
  unfold portNumber
  omega

theorem take_drop_eq_getD {bs : Text} {off n : Nat} (h : off + n ≤ bs.length) :
    (bs.drop off).take n = (List.range n).map fun i => bs.getD (off + i) 0 := by
  refine List.ext_getElem (by simp; omega) fun i hi _ => ?_
  rw [List.length_take, List.length_drop] at hi
  rw [List.getElem_map, List.getElem_range, List.getElem_take, List.getElem_drop,
    List.getD_eq_getElem]

/-- The number determines the bytes of the port. -/
theorem portOf_eq {bs bs' : Text} (hlen : 4 ≤ bs.length) (hlen' : 4 ≤ bs'.length)
    (h : portNumber bs = portNumber bs') : portOf bs = portOf bs' := by
  have hhigh := (bs.getD 2 0).toNat_lt
  have hlow := (bs.getD 3 0).toNat_lt
  have hhigh' := (bs'.getD 2 0).toNat_lt
  have hlow' := (bs'.getD 3 0).toNat_lt
  unfold portNumber at h
  have h2 : bs.getD 2 0 = bs'.getD 2 0 := UInt8.toNat_inj.mp (by omega)
  have h3 : bs.getD 3 0 = bs'.getD 3 0 := UInt8.toNat_inj.mp (by omega)
  rw [portOf, portOf, take_drop_eq_getD hlen, take_drop_eq_getD hlen']
  simp only [List.range_succ, List.range_zero, List.map_append, List.map_cons, List.map_nil,
    Nat.add_zero, h2, h3]

/-- The four numbers of an `AF_INET` address and what follows them. -/
def dottedText (bs : Text) : Text :=
  dec (bs.getD 4 0).toNat ++ lit "." ++ (dec (bs.getD 5 0).toNat ++ lit "." ++
    (dec (bs.getD 6 0).toNat ++ lit "." ++ (dec (bs.getD 7 0).toNat ++ lit "\")\x7d")))

theorem ip4Of_eq {bs bs' : Text} (hlen : 8 ≤ bs.length) (hlen' : 8 ≤ bs'.length)
    (h : dottedText bs = dottedText bs') : ip4Of bs = ip4Of bs' := by
  have hdot : lit "." = [0x2e] := by with_unfolding_all decide
  have hquote : lit "\")\x7d" = 0x22 :: lit ")\x7d" := by with_unfolding_all decide
  unfold dottedText at h
  simp only [hdot, hquote, List.append_assoc, List.singleton_append] at h
  obtain ⟨h4, h⟩ := dec_append_inj (by decide) h
  obtain ⟨h5, h⟩ := dec_append_inj (by decide) h
  obtain ⟨h6, h⟩ := dec_append_inj (by decide) h
  obtain ⟨h7, -⟩ := dec_append_inj (by decide) h
  rw [ip4Of, ip4Of, take_drop_eq_getD hlen, take_drop_eq_getD hlen']
  simp only [List.range_succ, List.range_zero, List.map_append, List.map_cons, List.map_nil,
    Nat.add_zero, UInt8.toNat_inj.mp h4, UInt8.toNat_inj.mp h5, UInt8.toNat_inj.mp h6,
    UInt8.toNat_inj.mp h7]

theorem sockaddrBytesText_inet (host : Host) {bs : Text} (hfamily : field bs 0 2 = 2)
    (hlen : 8 ≤ bs.length) : sockaddrBytesText host bs =
      lit "\x7bsa_family=AF_INET, sin_port=htons(" ++ (dec (portNumber bs) ++
        (lit "), sin_addr=inet_addr(\"" ++ dottedText bs)) := by
  unfold sockaddrBytesText dottedText
  dsimp only
  rw [if_pos ⟨hfamily, hlen⟩]
  simp only [List.append_assoc]
  rfl

theorem length_dec_byte (b : Byte) : (dec b.toNat).length ≤ 3 :=
  length_dec_le (by decide) (lt_trans b.toNat_lt (by decide))

theorem Passed.slot_inet {m : Mem} {addr : Word} {bs : Text} (h : Passed m addr bs) (host : Host)
    (hfamily : field bs 0 2 = 2) (hlen : 8 ≤ bs.length) :
    sockaddrSlot host m addr bs = lit "\x7bsa_family=AF_INET, sin_port=htons(" ++
      (dec (portNumber bs) ++ (lit "), sin_addr=inet_addr(\"" ++ dottedText bs)) := by
  have hclean : Clean (lit "\x7bsa_family=AF_INET, sin_port=htons(") ∧
      Clean (lit "), sin_addr=inet_addr(\"") ∧ Clean (lit ".") ∧ Clean (lit "\")\x7d") := by
    with_unfolding_all decide
  have hlength : (lit "\x7bsa_family=AF_INET, sin_port=htons(").length = 35 ∧
      (lit "), sin_addr=inet_addr(\"").length = 23 ∧ (lit ".").length = 1 ∧
      (lit "\")\x7d").length = 3 := by with_unfolding_all decide
  have hport := length_dec_le (by decide) (portNumber_lt bs)
  have hbytes : ∀ i, (dec (bs.getD i 0).toNat).length ≤ 3 := fun i => length_dec_byte _
  have hmax : strArgBufLen = 1024 := rfl
  rw [← sockaddrBytesText_inet host hfamily hlen]
  refine h.slot host (fun c hc => ?_) ?_
  · rw [sockaddrBytesText_inet host hfamily hlen] at hc
    refine Clean.ne_zero ?_ hc
    simp [dottedText, hclean]
  · have h4 := hbytes 4
    have h5 := hbytes 5
    have h6 := hbytes 6
    have h7 := hbytes 7
    rw [sockaddrBytesText_inet host hfamily hlen, dottedText]
    simp only [List.length_append, hlength]
    omega

theorem slot_inet_ne {host : Host} {m m' : Mem} {addr addr' : Word} {bs bs' : Text}
    (h : Passed m addr bs) (h' : Passed m' addr' bs') (hdiff : DifferentInet bs bs') :
    sockaddrSlot host m addr bs ≠ sockaddrSlot host m' addr' bs' := by
  obtain ⟨⟨hfamily, hlen⟩, ⟨hfamily', hlen'⟩, hdiff⟩ := hdiff
  have hparen : lit "), sin_addr=inet_addr(\"" = 0x29 :: lit ", sin_addr=inet_addr(\"" := by
    with_unfolding_all decide
  rw [h.slot_inet host hfamily hlen, h'.slot_inet host hfamily' hlen', hparen]
  intro heq
  obtain ⟨hport, hrest⟩ := dec_append_inj (by decide) (List.append_cancel_left heq)
  rcases hdiff with hne | hne
  · exact hne (portOf_eq (by omega) (by omega) hport)
  · exact hne (ip4Of_eq hlen hlen' (List.append_cancel_left hrest))

theorem length_ip6Of {bs : Text} (h : 24 ≤ bs.length) : (ip6Of bs).length = 16 := by
  rw [ip6Of, List.length_take, List.length_drop]
  omega

theorem sockaddrBytesText_inet6 {host : Host} {bs ip : Text} (hfamily : field bs 0 2 = 10)
    (hlen : 24 ≤ bs.length) (hip : host.inetNtop6 (ip6Of bs) = some ip) :
    sockaddrBytesText host bs = lit "\x7bsa_family=AF_INET6, sin6_port=htons(" ++
      (dec (portNumber bs) ++
        (lit "), sin6_addr=inet_pton(AF_INET6, \"" ++ (ip ++ lit "\")\x7d"))) := by
  rw [ip6Of] at hip
  unfold sockaddrBytesText
  dsimp only
  rw [if_neg (by omega), if_pos ⟨hfamily, hlen⟩, hip]
  simp only [List.append_assoc]
  rfl

theorem Passed.slot_inet6 {m : Mem} {addr : Word} {bs ip : Text} (h : Passed m addr bs)
    {host : Host} (hntop : host.NtopFaithful) (hfamily : field bs 0 2 = 10) (hlen : 24 ≤ bs.length)
    (hip : host.inetNtop6 (ip6Of bs) = some ip) :
    sockaddrSlot host m addr bs = lit "\x7bsa_family=AF_INET6, sin6_port=htons(" ++
      (dec (portNumber bs) ++
        (lit "), sin6_addr=inet_pton(AF_INET6, \"" ++ (ip ++ lit "\")\x7d"))) := by
  have hclean : Clean (lit "\x7bsa_family=AF_INET6, sin6_port=htons(") ∧
      Clean (lit "), sin6_addr=inet_pton(AF_INET6, \"") ∧ Clean (lit "\")\x7d") := by
    with_unfolding_all decide
  have hlength : (lit "\x7bsa_family=AF_INET6, sin6_port=htons(").length = 37 ∧
      (lit "), sin6_addr=inet_pton(AF_INET6, \"").length = 34 ∧ (lit "\")\x7d").length = 3 := by
    with_unfolding_all decide
  have hport := length_dec_le (by decide) (portNumber_lt bs)
  have hmax : strArgBufLen = 1024 := rfl
  obtain ⟨hz, hshort⟩ := hntop.string _ _ hip
  rw [← sockaddrBytesText_inet6 hfamily hlen hip]
  refine h.slot host (fun c hc => ?_) ?_
  · rw [sockaddrBytesText_inet6 hfamily hlen hip] at hc
    simp only [List.mem_append] at hc
    rcases hc with hc | hc | hc | hc | hc
    · exact hclean.1.ne_zero hc
    · exact (clean_dec _).ne_zero hc
    · exact hclean.2.1.ne_zero hc
    · exact hz c hc
    · exact hclean.2.2.ne_zero hc
  · rw [sockaddrBytesText_inet6 hfamily hlen hip]
    simp only [List.length_append, hlength]
    omega

theorem slot_inet6_ne {host : Host} (hntop : host.NtopFaithful) {m m' : Mem} {addr addr' : Word}
    {bs bs' : Text} (h : Passed m addr bs) (h' : Passed m' addr' bs')
    (hdiff : DifferentInet6 bs bs') :
    sockaddrSlot host m addr bs ≠ sockaddrSlot host m' addr' bs' := by
  obtain ⟨⟨hfamily, hlen⟩, ⟨hfamily', hlen'⟩, hdiff⟩ := hdiff
  have hparen : lit "), sin6_addr=inet_pton(AF_INET6, \"" =
      0x29 :: lit ", sin6_addr=inet_pton(AF_INET6, \"" := by with_unfolding_all decide
  obtain ⟨ip, hip⟩ := Option.isSome_iff_exists.mp (hntop.total _ (length_ip6Of hlen))
  obtain ⟨ip', hip'⟩ := Option.isSome_iff_exists.mp (hntop.total _ (length_ip6Of hlen'))
  rw [h.slot_inet6 hntop hfamily hlen hip, h'.slot_inet6 hntop hfamily' hlen' hip', hparen]
  intro heq
  obtain ⟨hport, hrest⟩ := dec_append_inj (by decide) (List.append_cancel_left heq)
  rcases hdiff with hne | hne
  · exact hne (portOf_eq (by omega) (by omega) hport)
  · have hsame : ip = ip' := List.append_cancel_right (List.append_cancel_left hrest)
    refine hne (hntop.injective _ _ (length_ip6Of hlen) (length_ip6Of hlen') ?_)
    rw [hip, hip', hsame]

/-- Internet addresses that differ in the port or in the address are told apart, and
different `AF_UNIX` addresses exactly when the difference survives the printing. -/
theorem sockaddr_told_apart_iff {host : Host} {m m' : Mem} {addr addr' : Word} {bs bs' : Text}
    (h : Passed m addr bs) (h' : Passed m' addr' bs') :
    (DifferentUnix bs bs' →
      (sockaddrSlot host m addr bs ≠ sockaddrSlot host m' addr' bs' ↔ UnixKept bs bs')) ∧
    (DifferentInet bs bs' → sockaddrSlot host m addr bs ≠ sockaddrSlot host m' addr' bs') ∧
    (host.NtopFaithful → DifferentInet6 bs bs' →
      sockaddrSlot host m addr bs ≠ sockaddrSlot host m' addr' bs') :=
  ⟨slot_unix_ne_iff h h', slot_inet_ne h h', fun hntop => slot_inet6_ne hntop h h'⟩

/-! ## Two pairs of addresses -/

/-- The groups of an address. -/
def groups : Text → List Nat
  | a :: b :: ip => (256 * a.toNat + b.toNat) :: groups ip
  | _ => []

/-- A group and the colon behind it. -/
def groupCode : PrefixCode Nat Byte where
  words g := hex g ++ [0x3a]
  Stops := (· = [])
  apart := fun _ _ _ _ h => (hex_append_inj (c := 0x3a) (by decide) (by simpa using h)).1
  going := by simp

/-- The groups with colons between them, as `inet_ntop` prints an address that has no zero
group to leave out. -/
def groupsText (ip : Text) : Text := (groupCode.encode (groups ip)).dropLast

/-- A C library that prints every address group by group. -/
def groupsHost : Host :=
  { (default : Host) with
    inetNtop6 := fun ip => if ip.length = 16 then some (groupsText ip) else none }

theorem groups_inj {n : Nat} {ip ip' : Text} (hlen : ip.length = 2 * n) (hlen' : ip'.length = 2 * n)
    (h : groups ip = groups ip') : ip = ip' := by
  induction n generalizing ip ip' with
  | zero =>
      rw [List.eq_nil_of_length_eq_zero hlen, List.eq_nil_of_length_eq_zero hlen']
  | succ n ih =>
      match ip, ip', hlen, hlen' with
      | a :: b :: ip, a' :: b' :: ip', hlen, hlen' =>
          simp only [List.length_cons] at hlen hlen'
          simp only [groups, List.cons.injEq] at h
          have hb := b.toNat_lt
          have hb' := b'.toNat_lt
          rw [UInt8.toNat_inj.mp (by omega : a.toNat = a'.toNat),
            UInt8.toNat_inj.mp (by omega : b.toNat = b'.toNat), ih (by omega) (by omega) h.2]

theorem length_groups {n : Nat} {ip : Text} (hlen : ip.length = 2 * n) :
    (groups ip).length = n := by
  induction n generalizing ip with
  | zero =>
      rw [List.eq_nil_of_length_eq_zero hlen]
      rfl
  | succ n ih =>
      match ip, hlen with
      | a :: b :: ip, hlen =>
          simp only [List.length_cons] at hlen
          rw [groups, List.length_cons, ih (by omega)]

theorem groups_lt (ip : Text) : ∀ g ∈ groups ip, g < 16 ^ 4 := by
  fun_induction groups ip with
  | case1 a b ip ih =>
      have ha := a.toNat_lt
      have hb := b.toNat_lt
      exact List.forall_mem_cons.mpr ⟨by omega, ih⟩
  | case2 => simp

/-- The text with the colon of its last group. -/
theorem groupsText_concat {ip : Text} (hlen : ip.length = 16) :
    groupsText ip ++ [0x3a] = groupCode.encode (groups ip) := by
  obtain ⟨gs, g, hgs⟩ := List.eq_nil_or_concat (groups ip) |>.resolve_left fun h => by
    simpa [h] using length_groups (n := 8) hlen
  simp [groupsText, hgs, PrefixCode.encode, groupCode, ← List.append_assoc]

theorem length_encode_groups_le {gs : List Nat} (h : ∀ g ∈ gs, g < 16 ^ 4) :
    (groupCode.encode gs).length ≤ 5 * gs.length := by
  induction gs with
  | nil => exact Nat.zero_le _
  | cons g gs ih =>
      obtain ⟨hg, hgs⟩ := List.forall_mem_cons.mp h
      have hhex : (hex g).length ≤ 4 := length_numeral_le (by decide) (by decide) hg
      have hrest := ih hgs
      simp only [PrefixCode.encode_cons, groupCode, List.length_append, List.length_cons,
        List.length_nil] at hrest ⊢
      omega

theorem clean_encode_groups (gs : List Nat) : Clean (groupCode.encode gs) := by
  induction gs with
  | nil => exact clean_nil
  | cons g gs ih =>
      rw [PrefixCode.encode_cons]
      exact clean_append.mpr ⟨clean_append.mpr ⟨clean_hex g, by decide⟩, ih⟩

theorem groupsHost_ntopFaithful : groupsHost.NtopFaithful where
  total := fun ip hip => by simp [groupsHost, hip]
  injective := fun ip ip' hip hip' h => by
    simp only [groupsHost, hip, hip', if_true, Option.some.injEq] at h
    have hcode : groupCode.encode (groups ip) ++ [] = groupCode.encode (groups ip') ++ [] := by
      rw [← groupsText_concat hip, ← groupsText_concat hip', h]
    exact groups_inj (n := 8) hip hip' (groupCode.encode_append_inj hcode rfl rfl).1
  string := fun ip t h => by
    simp only [groupsHost, Option.ite_none_right_eq_some, Option.some.injEq] at h
    obtain ⟨hip, rfl⟩ := h
    have hcode := groupsText_concat hip
    refine ⟨fun c hc => (clean_encode_groups (groups ip)).ne_zero ?_, ?_⟩
    · rw [← hcode]
      exact List.mem_append_left _ hc
    · have hle := length_encode_groups_le (groups_lt ip)
      rw [← hcode, length_groups (n := 8) hip, List.length_append] at hle
      omega

/-- The bytes, at 0x1000, and zeroes around them. -/
def holds (bs : Text) : Mem := fun a => some (bs.getD (a.toNat - 0x1000) 0)

theorem passed_holds {bs : Text} (hbytes : (holds bs).bytes 0x1000 bs.length = bs)
    (hfamily : 2 ≤ bs.length) (hshort : bs.length ≤ 128) : Passed (holds bs) 0x1000 bs :=
  ⟨by decide, fun _ _ => rfl, hbytes, hfamily, hshort⟩

/-- A `sockaddr_in6` with the address 2001:db8:1:2:3:4:5:6. -/
def exampleInet6 (port : Byte) : Text :=
  [10, 0, 0, port] ++ [0, 0, 0, 0] ++
    [0x20, 0x01, 0x0d, 0xb8, 0, 1, 0, 2, 0, 3, 0, 4, 0, 5, 0, 6] ++ [0, 0, 0, 0]

/-- The paths `a` and `b`, and one `AF_INET6` address with the ports 80 and 81. -/
theorem sockaddr_told_apart_pairs :
    (Passed (holds [1, 0, 0x61]) 0x1000 [1, 0, 0x61] ∧
      Passed (holds [1, 0, 0x62]) 0x1000 [1, 0, 0x62] ∧
      sockaddrSlot groupsHost (holds [1, 0, 0x61]) 0x1000 [1, 0, 0x61] ≠
        sockaddrSlot groupsHost (holds [1, 0, 0x62]) 0x1000 [1, 0, 0x62]) ∧
    (groupsHost.NtopFaithful ∧
      groupsHost.inetNtop6 (ip6Of (exampleInet6 80)) = some (lit "2001:db8:1:2:3:4:5:6") ∧
      Passed (holds (exampleInet6 80)) 0x1000 (exampleInet6 80) ∧
      Passed (holds (exampleInet6 81)) 0x1000 (exampleInet6 81) ∧
      sockaddrSlot groupsHost (holds (exampleInet6 80)) 0x1000 (exampleInet6 80) ≠
        sockaddrSlot groupsHost (holds (exampleInet6 81)) 0x1000 (exampleInet6 81)) := by
  have ha : Passed (holds [1, 0, 0x61]) 0x1000 [1, 0, 0x61] :=
    passed_holds (by decide) (by decide) (by decide)
  have hb : Passed (holds [1, 0, 0x62]) 0x1000 [1, 0, 0x62] :=
    passed_holds (by decide) (by decide) (by decide)
  have h80 : Passed (holds (exampleInet6 80)) 0x1000 (exampleInet6 80) :=
    passed_holds (by decide) (by decide) (by decide)
  have h81 : Passed (holds (exampleInet6 81)) 0x1000 (exampleInet6 81) :=
    passed_holds (by decide) (by decide) (by decide)
  have hpa : IsPathname [1, 0, 0x61] := ⟨by decide, by decide, by decide⟩
  have hpb : IsPathname [1, 0, 0x62] := ⟨by decide, by decide, by decide⟩
  refine ⟨⟨ha, hb, ?_⟩, groupsHost_ntopFaithful, ?_, h80, h81, ?_⟩
  · refine ((sockaddr_told_apart_iff ha hb).1 (.inl ⟨hpa, hpb, by decide⟩)).mpr ?_
    exact ⟨fun h => absurd h.2.2 hpa.2.2, fun _ h => absurd h.2.2 hpb.2.2,
      fun h => absurd h.2.2 hpa.2.2⟩
  · with_unfolding_all decide
  · exact (sockaddr_told_apart_iff h80 h81).2.2 groupsHost_ntopFaithful
      ⟨⟨by decide, by decide⟩, ⟨by decide, by decide⟩, .inl (by decide)⟩

/-- The abstract names `a`, NUL, `b` and `a`, NUL, `c` are two sockets with one text, and so
are the path `@a` and the abstract name `a`. -/
theorem sockaddr_confused :
    (DifferentUnix [1, 0, 0, 0x61, 0, 0x62] [1, 0, 0, 0x61, 0, 0x63] ∧
      sockaddrSlot groupsHost (holds [1, 0, 0, 0x61, 0, 0x62]) 0x1000 [1, 0, 0, 0x61, 0, 0x62] =
        sockaddrSlot groupsHost (holds [1, 0, 0, 0x61, 0, 0x63]) 0x1000 [1, 0, 0, 0x61, 0, 0x63]) ∧
    (DifferentUnix [1, 0, 0x40, 0x61] [1, 0, 0, 0x61] ∧
      sockaddrSlot groupsHost (holds [1, 0, 0x40, 0x61]) 0x1000 [1, 0, 0x40, 0x61] =
        sockaddrSlot groupsHost (holds [1, 0, 0, 0x61]) 0x1000 [1, 0, 0, 0x61]) := by
  have hslot : ∀ {bs : Text}, (holds bs).bytes 0x1000 bs.length = bs → field bs 0 2 = 1 →
      3 ≤ bs.length → bs.length ≤ 128 → sockaddrSlot groupsHost (holds bs) 0x1000 bs =
        lit "\x7bsa_family=AF_UNIX, sun_path=\"" ++ sunPathText bs ++ lit "\"\x7d" :=
    fun hbytes hfamily hlen hshort =>
      (passed_holds hbytes (by omega) hshort).slot_unix groupsHost hfamily hlen
  refine ⟨⟨.inr (.inl ⟨⟨by decide, by decide, by decide⟩, ⟨by decide, by decide, by decide⟩,
    by decide⟩), ?_⟩, .inr (.inr (.inl ⟨⟨by decide, by decide, by decide⟩,
    ⟨by decide, by decide, by decide⟩⟩)), ?_⟩
  · rw [hslot (by decide) (by decide) (by decide) (by decide),
      hslot (by decide) (by decide) (by decide) (by decide)]
    exact congrArg (fun t => _ ++ t ++ _) (by decide)
  · rw [hslot (by decide) (by decide) (by decide) (by decide),
      hslot (by decide) (by decide) (by decide) (by decide)]
    exact congrArg (fun t => _ ++ t ++ _) (by decide)

end MiniStrace
