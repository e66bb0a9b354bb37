import Outreach.Delivery.Remote
import Outreach.Proofs.Delivery.Path
import Outreach.Proofs.Executor.Outcome

/-!
# Which contact is addressed

A contact is updated at a path that is put together from the address of the service and from its
identifier as it is, and that is taken apart again when the request is made up. Only a plain identifier
is found again in that path (`Remote.IsPlain`, `Remote.leadsTo_iff`): no separator, no mark and no
break stands in it, nothing at its end is trimmed off, no percent sign in it stands for a byte, and it
is no segment of dots. Two contacts are kept apart exactly if both have such an identifier
(`Remote.addressed_apart_iff`). Nothing asks an identifier to be plain, so one that a variable tells can
lead to another contact or out of the contacts (`Executor.Contact.strange_contacts_astray`).
-/

namespace Outreach

namespace Url

variable {cs : List Char}

/-- Where no percent sign stands for a byte, none stands for a dot. -/
theorem plainDots_eq_self (h : Percent.holdsByte cs = false) : plainDots cs = cs := by
  fun_induction plainDots cs with
  | case1 e rest he ih =>
    rcases he with rfl | rfl
    · cases h
    · cases h
  | case2 e rest he ih => rw [ih (Bool.or_eq_false_iff.mp h).2]
  | case3 c rest _ ih => rw [ih (Bool.or_eq_false_iff.mp h).2]
  | case4 => rfl

theorem isBack_or_isHere_eq_false (h : Percent.holdsByte cs = false) (hhere : cs ≠ ['.'])
    (hback : cs ≠ ['.', '.']) : (isBack cs || isHere cs) = false := by
  simp [isBack, isHere, plainDots_eq_self h, hhere, hback]

end Url

namespace Remote

open Url

/-- An identifier that is a segment of a path as it stands. -/
structure IsPlain (contact : String) : Prop where
  marks : ∀ c ∈ contact.toList, c ∉ ['/', '\\', '?', '#', '\t', '\n', '\r']
  ending : ∀ c ∈ contact.toList.getLast?, 32 < c.toNat
  literal : Percent.holdsByte contact.toList = false
  moves : contact ≠ "." ∧ contact ≠ ".."

/-- A path leads from a stem to the contacts and on to the one with an identifier: to one segment,
from which the identifier is read. -/
def LeadsTo (stem : List Char) (contact : String) (path : List Char) : Prop :=
  ∃ segment, path = stem ++ "/contacts/".toList ++ segment ∧ '/' ∉ segment ∧
    Percent.decode? segment = some contact

/-! ## Segments -/

variable {path cs : List Char} {contact : String}

theorem sparesBytes_mustEncodeInPath : Percent.SparesBytes mustEncodeInPath := by
  rintro c (rfl | hdigit)
  · decide
  · have hrange : isControl c = false := by
      obtain ⟨n, hn⟩ := Option.isSome_iff_exists.mp hdigit
      obtain ⟨hlow, hhigh⟩ := Hexadecimal.toNat_of_valueOf? hn
      simp only [isControl, Bool.or_eq_false_iff, decide_eq_false_iff_not]
      omega
    rw [mustEncodeInPath, hrange, Bool.false_or, List.contains_eq_mem, decide_eq_false_iff_not]
    intro hmem
    simp only [List.mem_cons, List.not_mem_nil, or_false] at hmem
    rcases hmem with rfl | rfl | rfl | rfl | rfl | rfl | rfl | rfl | rfl <;> cases hdigit

theorem contacts_split : "contacts/".toList = "contacts".toList ++ ['/'] := by decide

theorem mount_split : "/contacts/".toList = '/' :: ("contacts".toList ++ ['/']) := by decide

theorem encode_contacts :
    Percent.encode mustEncodeInPath "contacts".toList = "contacts".toList := by
  decide

/-- The segments of a path to a contact: those before it, the one of all contacts, and what the
identifier comes to. -/
theorem resolve_contact (h : FollowsHost path) (cs : List Char) :
    resolve [] (pieces (path ++ '/' :: kept ("contacts/".toList ++ cs))) =
      resolve ("contacts".toList :: segmentsBefore path)
        (Text.split '/' ((kept cs).map asSlash)) := by
  have hkept : kept ("contacts/".toList ++ cs) = "contacts".toList ++ '/' :: kept cs := by
    rw [kept_append (by simp [isLost]) (by simp [isEdge]), contacts_split, List.append_assoc]
    rfl
  have hplain : (isBack "contacts".toList || isHere "contacts".toList) = false :=
    isBack_or_isHere_eq_false (by decide) (by decide) (by decide)
  have htake : take (segmentsBefore path) "contacts".toList =
      "contacts".toList :: segmentsBefore path := by
    obtain ⟨hback, hhere⟩ := Bool.or_eq_false_iff.mp hplain
    rw [take, hback, hhere, encode_contacts]
    rfl
  have hsplit : Text.split '/' (("contacts".toList ++ '/' :: kept cs).map asSlash) =
      ["contacts".toList] ++ Text.split '/' ((kept cs).map asSlash) := by
    rw [List.map_append, List.map_cons, show asSlash '/' = '/' from rfl, Text.split_append]
    rfl
  obtain ⟨first, others, hfirst⟩ :=
    List.exists_cons_of_ne_nil (Text.split_ne_nil '/' ((kept cs).map asSlash))
  rw [hkept, resolve_pieces_append h, hsplit, hfirst, resolve_append, List.foldl_cons, htake]
  rfl

/-- A text ends in one segment only. -/
theorem segment_unique {xs ys a b : List Char} (ha : '/' ∉ a) (hb : '/' ∉ b)
    (h : xs ++ '/' :: a = ys ++ '/' :: b) : a = b := by
  have hend (xs : List Char) {a : List Char} (ha : '/' ∉ a) :
      (xs ++ '/' :: a).reverse.takeWhile (· ≠ '/') = a.reverse := by
    rw [List.reverse_append, List.reverse_cons, List.append_assoc]
    refine (Text.takeWhile_append_of_head _ _ (fun c hc => ?_) (by rintro c ⟨⟩; rfl)).1
    exact decide_eq_true fun hsame => ha (hsame ▸ List.mem_reverse.mp hc)
  have hsame := hend xs ha
  rw [h, hend ys hb] at hsame
  exact List.reverse_injective hsame.symm

theorem not_mem_lastSegment (h : '/' ∉ cs) : '/' ∉ lastSegment cs := by
  unfold lastSegment
  split
  next => exact List.not_mem_nil
  next => exact fun hmem => h (Percent.mem_of_mem_encode hmem (by decide) rfl)

theorem length_bytes_lastSegment_le (cs : List Char) :
    (Percent.bytes (lastSegment cs)).length ≤ (Percent.ownBytes cs).length := by
  unfold lastSegment
  split
  next => simp [Percent.bytes]
  next =>
    rw [Percent.bytes_encode sparesBytes_mustEncodeInPath]
    exact Percent.length_bytes_le cs

theorem length_ownBytes_map_asSlash (cs : List Char) :
    (Percent.ownBytes (cs.map asSlash)).length = (Percent.ownBytes cs).length := by
  induction cs with
  | nil => rfl
  | cons c rest ih =>
    have hsize : (asSlash c).utf8Size = c.utf8Size := by
      unfold asSlash
      split
      next hc =>
        subst hc
        rfl
      next => rfl
    rw [List.map_cons, Percent.length_ownBytes_cons, Percent.length_ownBytes_cons, hsize, ih]

theorem map_asSlash_of_not_mem (h : ∀ c ∈ cs, c ≠ '\\') : cs.map asSlash = cs :=
  (List.map_congr_left fun c hc => if_neg (h c hc)).trans (List.map_id' cs)

/-- A piece with all the bytes of an identifier is the whole of it: no byte was lost with what is kept
of it, nor where it was cut, nor to percent signs. -/
theorem eq_of_bytes_eq {piece : List Char} (hpiece : piece ∈ Text.split '/' ((kept cs).map asSlash))
    (h : Percent.bytes (lastSegment piece) = Percent.ownBytes cs) :
    kept cs = cs ∧ piece = cs ∧ ∀ c ∈ cs, c ≠ '/' ∧ c ≠ '\\' := by
  have hlength := congrArg List.length h
  have hlast := length_bytes_lastSegment_le piece
  have hsub := Text.sublist_of_mem_split hpiece
  have hle := Percent.length_ownBytes_le hsub
  rw [length_ownBytes_map_asSlash] at hle
  have hkept := Percent.length_ownBytes_le (kept_sublist cs)
  have hwhole : kept cs = cs := Percent.eq_of_sublist_of_length_le (kept_sublist cs) (by omega)
  have huncut : piece = cs.map asSlash := by
    rw [hwhole] at hsub
    refine Percent.eq_of_sublist_of_length_le hsub ?_
    rw [length_ownBytes_map_asSlash]
    omega
  have hslash : ∀ c ∈ cs, asSlash c ≠ '/' := fun c hc hsame =>
    Text.not_mem_of_mem_split hpiece (huncut ▸ hsame ▸ List.mem_map_of_mem hc)
  have hmarks : ∀ c ∈ cs, c ≠ '/' ∧ c ≠ '\\' := by
    refine fun c hc => ⟨?_, ?_⟩
    · rintro rfl
      exact hslash _ hc rfl
    · rintro rfl
      exact hslash _ hc rfl
  exact ⟨hwhole, huncut.trans (map_asSlash_of_not_mem fun c hc => (hmarks c hc).2), hmarks⟩

/-- A piece that leaves all its bytes is no segment of dots. -/
theorem isBack_or_isHere_eq_false_of_bytes_eq {piece : List Char}
    (h : Percent.bytes (lastSegment piece) = Percent.ownBytes piece) :
    (isBack piece || isHere piece) = false := by
  cases hdots : isBack piece || isHere piece with
  | false => rfl
  | true =>
    have hlength := congrArg List.length h
    rw [lastSegment, if_pos hdots] at hlength
    cases piece with
    | nil => simp [isBack, isHere, plainDots] at hdots
    | cons c rest =>
      have hpos := Char.utf8Size_pos c
      rw [Percent.length_ownBytes_cons, Percent.bytes, List.length_nil] at hlength
      omega

/-- A path with a segment that stands for the identifier is that of a plain one. -/
theorem isPlain_of_bytes_eq {piece : List Char}
    (hpiece : piece ∈ Text.split '/' ((kept contact.toList).map asSlash))
    (h : Percent.bytes (lastSegment piece) = Percent.ownBytes contact.toList) :
    IsPlain contact := by
  obtain ⟨hwhole, rfl, hslashes⟩ := eq_of_bytes_eq hpiece h
  obtain ⟨hlost, hend⟩ := kept_eq_self_iff.mp hwhole
  have hdots := isBack_or_isHere_eq_false_of_bytes_eq h
  rw [lastSegment, if_neg (by simp [hdots]), Percent.bytes_encode sparesBytes_mustEncodeInPath] at h
  refine ⟨fun c hc => ?_, fun c hc => ?_, ?_, ?_⟩
  · have hkept := hlost c hc
    have hslash := hslashes c hc
    simp_all [isLost]
  · simpa [isEdge] using hend c hc
  · exact (Percent.length_bytes_eq_iff _).mp (congrArg List.length h)
  · constructor
    · rintro rfl
      simp [isBack, isHere, plainDots] at hdots
    · rintro rfl
      simp [isBack, isHere, plainDots] at hdots

namespace IsPlain

variable (h : IsPlain contact)

include h

theorem kept_eq : kept contact.toList = contact.toList := by
  refine kept_eq_self_iff.mpr ⟨fun c hc => ?_, fun c hc => ?_⟩
  · have hmarks := h.marks c hc
    simp_all [isLost]
  · simpa [isEdge] using h.ending c hc

theorem split_eq : Text.split '/' (contact.toList.map asSlash) = [contact.toList] := by
  rw [map_asSlash_of_not_mem fun c hc hsame => h.marks c hc (by simp [hsame])]
  exact Text.split_of_not_mem fun hmem => h.marks _ hmem (by simp)

theorem isBack_or_isHere_eq_false :
    (isBack contact.toList || isHere contact.toList) = false := by
  refine Url.isBack_or_isHere_eq_false h.literal (fun hsame => h.moves.1 ?_)
    fun hsame => h.moves.2 ?_
  · exact String.toList_inj.mp hsame
  · exact String.toList_inj.mp hsame

theorem decode?_eq :
    Percent.decode? (Percent.encode mustEncodeInPath contact.toList) = some contact := by
  rw [Percent.decode?_eq_some_iff, Percent.bytes_encode sparesBytes_mustEncodeInPath,
    Percent.bytes_eq_ownBytes h.literal]

end IsPlain

/-- A contact is addressed exactly if its identifier is plain. -/
theorem leadsTo_iff (h : FollowsHost path) {u : Url} (hu : u.segments =
    pathSegments (path ++ '/' :: kept ("contacts/".toList ++ contact.toList))) :
    LeadsTo (slashed (segmentsBefore path).reverse) contact u.path.toList ↔ IsPlain contact := by
  obtain ⟨before, piece, hpieces⟩ := (List.eq_nil_or_concat
    (Text.split '/' ((kept contact.toList).map asSlash))).resolve_left (Text.split_ne_nil _ _)
  rw [List.concat_eq_append] at hpieces
  obtain ⟨others, hothers⟩ :=
    exists_resolve_concat ("contacts".toList :: segmentsBefore path) before piece
  have hpath : u.path.toList = slashed others.reverse ++ '/' :: lastSegment piece := by
    rw [pathSegments_eq, resolve_contact h, hpieces, hothers, List.reverse_cons] at hu
    rw [toList_path hu (by simp), slashed_append]
    simp [slashed]
  have hmem : piece ∈ Text.split '/' ((kept contact.toList).map asSlash) := by simp [hpieces]
  constructor
  · rintro ⟨segment, hsegment, hslash, hdecode⟩
    have hend : u.path.toList =
        (slashed (segmentsBefore path).reverse ++ '/' :: "contacts".toList) ++ '/' :: segment := by
      rw [hsegment, mount_split]
      simp
    obtain rfl : lastSegment piece = segment :=
      segment_unique (not_mem_lastSegment (Text.not_mem_of_mem_split hmem)) hslash
        (hpath.symm.trans hend)
    exact isPlain_of_bytes_eq hmem (Percent.decode?_eq_some_iff.mp hdecode)
  · intro hplain
    have hwhole := resolve_contact h contact.toList
    rw [hplain.kept_eq, hplain.split_eq, resolve_singleton hplain.isBack_or_isHere_eq_false] at hwhole
    rw [pathSegments_eq, hwhole] at hu
    refine ⟨Percent.encode mustEncodeInPath contact.toList, ?_, ?_, hplain.decode?_eq⟩
    · rw [toList_path hu (by simp), mount_split]
      simp [slashed]
    · intro hslash
      exact hplain.marks _ (Percent.mem_of_mem_encode hslash (by decide) rfl) (by simp)

/-! ## Requests -/

/-- The request with which a contact is updated. -/
def patch (u : Url) (fields : Members Json) (timeout : Nat) : WireRequest where
  method := "PATCH"
  url := u
  headers := [("content-type", "application/json"), ("user-agent", WireRequest.agent)]
  body := some (.object fields)
  timeout

/-- The address at which a contact is updated. -/
def address? (base contact : String) : Option Url :=
  Url.read? (contactUrl base contact)

/-- To update a contact is to send one request to an address and to read the response. -/
def SendsTo (base contact : String) (u : Url) : Prop :=
  ∀ network timeout fields, updateContact ⟨network, timeout⟩ base contact fields =
    ((network (patch u fields timeout)).bind WireResponse.ensureSuccess).map fun response =>
      if response.value.isNull then written contact fields else response.value

/-- The path of an address before the one slash at its end that a path is put behind. -/
def stem (base : String) : List Char :=
  ((Url.read? (Url.join base "")).map fun u => u.path.toList.dropLast).getD []

variable {base : String} {b u : Url}

theorem sendsTo_of_address? (h : address? base contact = some u) : SendsTo base contact u := by
  intro network timeout fields
  have hbuild : WireRequest.build "PATCH" (contactUrl base contact) (bearer none)
      (some (.object fields)) timeout = .ok (patch u fields timeout) := by
    rw [WireRequest.build, show Url.read? (contactUrl base contact) = some u from h]
    rfl
  simp only [updateContact, Link.put, hbuild, bind, Except.bind]
  cases network (patch u fields timeout) with
  | error fault => rfl
  | ok response => cases response.ensureSuccess <;> rfl

/-- What the parts of an address come to where contacts are put behind it. -/
theorem exists_path_of_read? (hbase : IsBase base) (hread : Url.read? base = some b) :
    ∃ path, FollowsHost path ∧ stem base = slashed (segmentsBefore path).reverse ∧
      (∃ n, b.path.toList = stem base ++ List.replicate n '/') ∧
      ∀ contact, ∃ u, address? base contact = some u ∧
        (u.isSecure, u.host, u.port) = (b.isSecure, b.host, b.port) ∧
        u.segments = pathSegments (path ++ '/' :: kept ("contacts/".toList ++ contact.toList)) := by
  obtain ⟨path, n, hpath, hsegments, hbehind⟩ := read?_join hbase hread
  have hstem : stem base = slashed (segmentsBefore path).reverse := by
    obtain ⟨u, hu, -, hempty⟩ := hbehind ""
    have hpieces := resolve_pieces_append hpath []
    rw [List.map_nil, show Text.split '/' [] = List.replicate 1 [] from rfl, resolve_replicate]
      at hpieces
    rw [pathSegments_eq, show kept ("".toList.dropWhile (· = '/')) = [] from rfl, hpieces] at hempty
    rw [stem, hu, Option.map_some, Option.getD_some, toList_path hempty (by simp),
      List.reverse_append, slashed_append]
    exact List.dropLast_concat
  refine ⟨path, hpath, hstem, ?_, fun contact => ?_⟩
  · obtain ⟨m, hm⟩ := exists_resolve_replicate hpath n
    have hne : (resolve [] (pieces (path ++ List.replicate n '/'))).reverse ≠ [] :=
      mt List.reverse_eq_nil_iff.mp (resolve_ne_nil [] (Text.split_ne_nil _ _))
    rw [pathSegments_eq] at hsegments
    refine ⟨m, ?_⟩
    rw [toList_path hsegments hne, hm, List.reverse_append, slashed_append, List.reverse_replicate,
      slashed_replicate, hstem]
  · obtain ⟨u, hu, hservice, hsegments⟩ := hbehind ("contacts/" ++ contact)
    refine ⟨u, hu, hservice, ?_⟩
    rw [hsegments, String.toList_append]
    rfl

/-- **Contacts are kept apart exactly if their identifiers are plain.** Whatever the identifiers are,
an update sends one request, to the host of the service. Its path is that of the service, then the
one of all contacts, then one segment from which the identifier is read, exactly if the identifier is
plain; and two contacts have such paths, different ones, exactly if both are. -/
theorem addressed_apart_iff (hbase : IsBase base) (hread : Url.read? base = some b) :
    (∃ n, b.path.toList = stem base ++ List.replicate n '/') ∧
      (∀ contact, ∃ u, address? base contact = some u ∧ SendsTo base contact u ∧
        (u.isSecure, u.host, u.port) = (b.isSecure, b.host, b.port) ∧
        (LeadsTo (stem base) contact u.path.toList ↔ IsPlain contact)) ∧
      ∀ a c, a ≠ c → ∀ u v, address? base a = some u → address? base c = some v →
        ((u.path ≠ v.path ∧ LeadsTo (stem base) a u.path.toList ∧
          LeadsTo (stem base) c v.path.toList) ↔ IsPlain a ∧ IsPlain c) := by
  obtain ⟨path, hpath, hstem, hown, haddress⟩ := exists_path_of_read? hbase hread
  have hleads {contact : String} {u : Url} (hu : address? base contact = some u) :
      LeadsTo (stem base) contact u.path.toList ↔ IsPlain contact := by
    obtain ⟨u', hu', -, hsegments⟩ := haddress contact
    obtain rfl : u' = u := Option.some.inj (hu'.symm.trans hu)
    rw [hstem]
    exact leadsTo_iff hpath hsegments
  refine ⟨hown, fun contact => ?_, fun a c hne u v hu hv => ?_⟩
  · obtain ⟨u, hu, hservice, -⟩ := haddress contact
    exact ⟨u, hu, sendsTo_of_address? hu, hservice, hleads hu⟩
  · rw [← hleads hu, ← hleads hv]
    refine ⟨And.right, fun h => ⟨fun hsame => hne ?_, h⟩⟩
    -- The same path has the same segment, and that is read as one identifier.
    obtain ⟨⟨segment, hsegment, hslash, hdecode⟩, segment', hsegment', hslash', hdecode'⟩ := h
    rw [hsame, hsegment'] at hsegment
    obtain rfl := List.append_cancel_left hsegment
    exact Option.some.inj (hdecode.symm.trans hdecode')

/-- Two plain identifiers, one with characters that are written with percent signs and one with a
percent sign of its own, behind an address with a path. -/
theorem plain_contacts_apart :
    ∃ u v, address? "http://c/api/" "Ada L." = some u ∧ address? "http://c/api/" "100%" = some v ∧
      u.path ≠ v.path ∧ LeadsTo "/api".toList "Ada L." u.path.toList ∧
      LeadsTo "/api".toList "100%" v.path.toList := by
  have hbase : IsBase "http://c/api/" := ⟨by decide, by decide, by simp [isEdge]⟩
  have hread : Url.read? "http://c/api/" = some ⟨false, "c", none, ["api", ""], none⟩ := by
    decide +kernel
  have hstem : stem "http://c/api/" = "/api".toList := by decide +kernel
  obtain ⟨-, haddress, hapart⟩ := addressed_apart_iff hbase hread
  obtain ⟨u, hu, -⟩ := haddress "Ada L."
  obtain ⟨v, hv, -⟩ := haddress "100%"
  have hplain : IsPlain "Ada L." ∧ IsPlain "100%" :=
    ⟨⟨by simp, by simp, by decide, by decide⟩, ⟨by simp, by simp, by decide, by decide⟩⟩
  have hpaths := (hapart "Ada L." "100%" (by decide) u v hu hv).mpr hplain
  rw [hstem] at hpaths
  exact ⟨u, v, hu, hv, hpaths⟩

end Remote

/-! ## Nodes -/

namespace Executor.Contact

variable {n : Node} {settings : ContactSettings}

/-- What is asked for at a node: the update of its contact, if the identifier is neither blank nor
unknown. -/
theorem requests_eq (hs : n.settingsAs ContactSettings.layout = .ok settings) (now : Instant)
    (e : Execution) (wake : Nat → Wake) :
    let contact := Template.interpolate settings.contact e.vars
    ((Executor.contact.perform now n e).calls wake).map Exchange.request =
      if Text.isBlankText contact || Template.mayHoldPlaceholder contact then []
      else [.updateContact contact
        (settings.fields.mapValues (Template.interpolateValue e.vars))] := by
  have hperform : Executor.contact.perform now n e = perform now n e := rfl
  rw [hperform, perform, withSettings, hs]
  dsimp only
  split
  next => rfl
  next => rfl

/-- A node that updates the contact that a variable tells. -/
def updater : Node where
  id := "a"
  type := .updateContact
  name := ""
  settings := .record [("contactId", .string "\x7b\x7bid\x7d\x7d"), ("fields", .object [])]
  connections := []
  position := none

/-- **Identifiers from variables reach other contacts and other services**: a question mark cuts the
path off, so that another contact is updated, and dots lead out of the contacts. -/
theorem strange_contacts_astray :
    let asked (contact : String) := ((Executor.contact.perform default updater
      (.create Wake.outage.moment "f" none [("id", .string contact)])).calls fun _ => .outage).map
        Exchange.request
    let path (contact : String) := (Remote.address? "http://c" contact).map Url.path
    asked "7" = [.updateContact "7" []] ∧ asked "7?x" = [.updateContact "7?x" []] ∧
      asked "../orders/7" = [.updateContact "../orders/7" []] ∧
      path "7" = some "/contacts/7" ∧ path "7?x" = some "/contacts/7" ∧
      path "../orders/7" = some "/orders/7" := by
  have hs : updater.settingsAs ContactSettings.layout =
      .ok ⟨some "\x7b\x7bid\x7d\x7d", []⟩ := rfl
  have hasked (contact : String) (hfilled : Template.interpolate "\x7b\x7bid\x7d\x7d"
      [("id", .string contact)] = contact) (hknown : (Text.isBlankText contact ||
        Template.mayHoldPlaceholder contact) = false) :
      ((Executor.contact.perform default updater
        (.create Wake.outage.moment "f" none [("id", .string contact)])).calls fun _ => .outage).map
          Exchange.request = [.updateContact contact []] := by
    have hrequests := requests_eq hs default
      (.create Wake.outage.moment "f" none [("id", .string contact)]) fun _ => .outage
    dsimp only [ContactSettings.contact, Option.getD_some, Execution.create] at hrequests
    rw [hfilled, hknown] at hrequests
    exact hrequests
  refine ⟨hasked "7" ?_ ?_, hasked "7?x" ?_ ?_, hasked "../orders/7" ?_ ?_, ?_, ?_, ?_⟩
  all_goals decide +kernel

end Executor.Contact

end Outreach
