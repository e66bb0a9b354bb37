import Mathlib.Data.List.TakeWhile
import Outreach.Delivery.Url
import Outreach.Proofs.Text.Percent
import Outreach.Proofs.Text.Split

/-!
# A path behind an address

What a path comes down to when it is put behind an address and the two are read as one
(`Url.read?_join`). The address keeps its scheme, its host and its port, and the segments of its own
path. Of the path behind it the end is lost: white space, and what follows a question mark or a number
sign; the rest is cut at slashes of both kinds, and segments of dots are carried out.
-/

namespace Outreach

namespace Url

/-! ## Rows of characters -/

variable {p : Char → Bool} {cs rest : List Char} {n : Nat}

theorem dropWhile_append_of_head (p : Char → Bool) (cs : List Char)
    (h : ∀ c ∈ rest.head?, p c = false) :
    (cs ++ rest).dropWhile p = cs.dropWhile p ++ rest := by
  have hrest : rest.dropWhile p = rest := by
    cases rest with
    | nil => rfl
    | cons c tail => simp [h c rfl]
  rw [List.dropWhile_append, hrest]
  split
  next hempty => rw [List.isEmpty_iff.mp hempty, List.nil_append]
  next => rfl

/-- A text is its text without the slashes at its end, and these slashes. -/
theorem exists_slashes (cs : List Char) :
    ∃ n, cs = trimEndSlashes cs ++ List.replicate n '/' := by
  refine ⟨(cs.reverse.takeWhile (· = '/')).length, ?_⟩
  have hslashes : cs.reverse.takeWhile (· = '/') =
      List.replicate (cs.reverse.takeWhile (· = '/')).length '/' := by
    refine List.eq_replicate_of_mem fun c hc => ?_
    exact of_decide_eq_true (List.all_eq_true.mp List.all_takeWhile c hc)
  have hsplit := List.takeWhile_append_dropWhile (p := fun c => decide (c = '/')) (l := cs.reverse)
  rw [trimEndSlashes, ← List.reverse_replicate, ← hslashes, ← List.reverse_append, hsplit,
    List.reverse_reverse]

/-! ## Spaces and line breaks -/

/-- A character that is taken off the ends of an address. -/
def isEdge (c : Char) : Bool :=
  c.toNat ≤ 32

/-- A character that an address is read with. -/
def isKept (c : Char) : Bool :=
  c ≠ '\t' ∧ c ≠ '\n' ∧ c ≠ '\r'

/-- A text without what is taken off its end. -/
def trimmedEnd (cs : List Char) : List Char :=
  (cs.reverse.dropWhile isEdge).reverse

theorem cleaned_eq (text : String) :
    cleaned text = (trimmedEnd (text.toList.dropWhile isEdge)).filter isKept := rfl

theorem trimmedEnd_append (h : ∀ c ∈ cs.getLast?, isEdge c = false) (rest : List Char) :
    trimmedEnd (cs ++ rest) = cs ++ trimmedEnd rest := by
  have hhead : ∀ c ∈ cs.reverse.head?, isEdge c = false := by rwa [List.head?_reverse]
  rw [trimmedEnd, List.reverse_append, dropWhile_append_of_head isEdge _ hhead,
    List.reverse_append, List.reverse_reverse]
  rfl

theorem trimmedEnd_of_getLast? (h : ∀ c ∈ cs.getLast?, isEdge c = false) :
    trimmedEnd cs = cs := by
  simpa [trimmedEnd] using trimmedEnd_append h []

theorem getLast?_of_trimmedEnd (h : trimmedEnd cs = cs) : ∀ c ∈ cs.getLast?, isEdge c = false := by
  have hhead : (cs.reverse.dropWhile isEdge).head? = cs.getLast? := by
    rw [← List.getLast?_reverse]
    exact congrArg List.getLast? h
  have hnot := List.head?_dropWhile_not isEdge cs.reverse
  intro c hc
  rw [hhead, Option.mem_def.mp hc] at hnot
  exact hnot

/-! ## Segments -/

/-- What a segment makes of those before it, if others follow. -/
def take (taken : List (List Char)) (segment : List Char) : List (List Char) :=
  if isBack segment then taken.tail
  else if isHere segment then taken
  else Percent.encode mustEncodeInPath segment :: taken

variable {taken : List (List Char)} {segment : List Char}

theorem resolve_append (taken before : List (List Char)) (segment : List Char)
    (behind : List (List Char)) :
    resolve taken (before ++ segment :: behind) =
      resolve (before.foldl take taken) (segment :: behind) := by
  induction before generalizing taken with
  | nil => rfl
  | cons first before ih =>
    rw [List.cons_append, resolve, List.foldl_cons, take]
    cases isBack first <;> cases isHere first <;> simp [ih]

theorem resolve_singleton_of_dots (h : (isBack segment || isHere segment) = true) :
    resolve taken [segment] = [] :: take taken segment := by
  unfold take
  cases hback : isBack segment <;> cases hhere : isHere segment <;> simp_all [resolve]

theorem resolve_singleton (h : (isBack segment || isHere segment) = false) :
    resolve taken [segment] = Percent.encode mustEncodeInPath segment :: taken := by
  simp_all [resolve]

/-- What the last piece of a path leaves: nothing, if it is a segment of dots. -/
def lastSegment (piece : List Char) : List Char :=
  if isBack piece || isHere piece then [] else Percent.encode mustEncodeInPath piece

theorem exists_resolve_concat (taken before : List (List Char)) (piece : List Char) :
    ∃ others, resolve taken (before ++ [piece]) = lastSegment piece :: others := by
  rw [resolve_append, lastSegment]
  cases hdots : isBack piece || isHere piece with
  | true => exact ⟨_, resolve_singleton_of_dots hdots⟩
  | false => exact ⟨_, resolve_singleton hdots⟩

/-- Slashes add empty segments. -/
theorem resolve_replicate (taken : List (List Char)) (n : Nat) :
    resolve taken (List.replicate n []) = List.replicate n [] ++ taken := by
  have hempty : isBack [] = false ∧ isHere [] = false := by simp [isBack, isHere, plainDots]
  have hencode : Percent.encode mustEncodeInPath [] = [] := rfl
  induction n generalizing taken with
  | zero => rfl
  | succ n ih =>
    rw [List.replicate_succ, resolve]
    simp only [hempty, Bool.or_self, if_neg Bool.false_ne_true, ih, hencode]
    rw [List.append_cons, ← List.replicate_succ', List.replicate_succ]

/-- Where there is a piece, there is a segment. -/
theorem resolve_ne_nil (taken : List (List Char)) {pieces : List (List Char)} (h : pieces ≠ []) :
    resolve taken pieces ≠ [] := by
  obtain ⟨before, last, rfl⟩ := List.eq_nil_or_concat pieces |>.resolve_left h
  obtain ⟨others, hothers⟩ := exists_resolve_concat taken before last
  rw [List.concat_eq_append, hothers]
  exact List.cons_ne_nil _ _

/-! ## The text of a path -/

/-- Segments, each with a slash before it. -/
def slashed (segments : List (List Char)) : List Char :=
  segments.flatMap fun segment => '/' :: segment

theorem slashed_append (before behind : List (List Char)) :
    slashed (before ++ behind) = slashed before ++ slashed behind :=
  List.flatMap_append

theorem slashed_replicate (n : Nat) : slashed (List.replicate n []) = List.replicate n '/' := by
  simp [slashed, List.flatMap_replicate]

theorem slashed_eq_cons {segments : List (List Char)} (h : segments ≠ []) :
    slashed segments = '/' :: List.intercalate ['/'] segments := by
  induction segments with
  | nil => exact absurd rfl h
  | cons first rest ih =>
    rw [slashed, List.flatMap_cons, ← slashed]
    cases rest with
    | nil => simp [slashed]
    | cons second rest => rw [ih (List.cons_ne_nil _ _), List.intercalate_cons_cons]; simp

theorem toList_path {u : Url} {segments : List (List Char)}
    (h : u.segments = segments.map String.ofList) (hne : segments ≠ []) :
    u.path.toList = slashed segments := by
  have htexts : (segments.map String.ofList).map String.toList = segments := by simp
  rw [path, h, String.toList_append, String.toList_intercalate, htexts, slashed_eq_cons hne]
  rfl

/-! ## The pieces of a path -/

/-- A backslash counts as a slash. -/
def asSlash (c : Char) : Char :=
  if c = '\\' then '/' else c

/-- What a path is cut into. -/
def pieces (path : List Char) : List (List Char) :=
  Text.split '/' (match path.map asSlash with
    | '/' :: rest => rest
    | cs => cs)

theorem pathSegments_eq (path : List Char) :
    pathSegments path = (resolve [] (pieces path)).reverse.map String.ofList := rfl

/-- What stands behind the host of an address: nothing, or a slash and more. -/
def FollowsHost (path : List Char) : Prop :=
  ∀ c ∈ path.head?, asSlash c = '/'

/-- The segments of a path that goes on, the last one first. -/
def segmentsBefore (path : List Char) : List (List Char) :=
  (if path.isEmpty then [] else pieces path).foldl take []

variable {path : List Char}

theorem resolve_pieces_append (h : FollowsHost path) (rest : List Char) :
    resolve [] (pieces (path ++ '/' :: rest)) =
      resolve (segmentsBefore path) (Text.split '/' (rest.map asSlash)) := by
  obtain ⟨first, others, hfirst⟩ :=
    List.exists_cons_of_ne_nil (Text.split_ne_nil '/' (rest.map asSlash))
  have hpieces : pieces (path ++ '/' :: rest) =
      (if path.isEmpty then [] else pieces path) ++ Text.split '/' (rest.map asSlash) := by
    cases path with
    | nil => rfl
    | cons c path =>
      have hc : asSlash c = '/' := h c rfl
      have hslash : asSlash '/' = '/' := rfl
      simp only [pieces, List.cons_append, List.map_cons, List.map_append, hc, hslash,
        Text.split_append]
      rfl
  rw [hpieces, hfirst, resolve_append, segmentsBefore]

/-- Slashes at the end of a path are empty segments, apart from one. -/
theorem exists_resolve_replicate (h : FollowsHost path) (n : Nat) :
    ∃ m, resolve [] (pieces (path ++ List.replicate n '/')) =
      List.replicate m [] ++ segmentsBefore path := by
  have hsplit (n : Nat) : Text.split '/' ((List.replicate n '/').map asSlash) =
      List.replicate (n + 1) [] := by
    induction n with
    | zero => rfl
    | succ n ih =>
      rw [List.replicate_succ, List.map_cons, show asSlash '/' = '/' from rfl, Text.split, if_pos rfl,
        ih]
      rfl
  cases n with
  | succ n =>
    refine ⟨n + 1, ?_⟩
    rw [List.replicate_succ, resolve_pieces_append h, hsplit, resolve_replicate]
  | zero =>
    rw [List.replicate_zero, List.append_nil]
    cases path with
    | nil => exact ⟨1, resolve_replicate [] 1⟩
    | cons c path =>
      obtain ⟨before, last, hlast⟩ :=
        (List.eq_nil_or_concat (pieces (c :: path))).resolve_left (Text.split_ne_nil _ _)
      have hbefore : segmentsBefore (c :: path) = take (before.foldl take []) last := by
        simp [segmentsBefore, hlast]
      rw [hlast, List.concat_eq_append, resolve_append, hbefore]
      cases hdots : isBack last || isHere last with
      | true => exact ⟨1, resolve_singleton_of_dots hdots⟩
      | false =>
        refine ⟨0, ?_⟩
        obtain ⟨hback, hhere⟩ := Bool.or_eq_false_iff.mp hdots
        simp [resolve_singleton hdots, take, hback, hhere]

/-! ## Reading -/

/-- A slash of either kind. -/
def isSlash (c : Char) : Bool :=
  c = '/' || c = '\\'

/-- A character of the host and the port. -/
def inAuthority (c : Char) : Bool :=
  c ≠ '/' && c ≠ '\\' && c ≠ '?'

/-- What stands between the slashes and the path. -/
def authorityPart (rest : List Char) : List Char :=
  (rest.dropWhile isSlash).takeWhile inAuthority

/-- What stands behind the host and the port. -/
def targetPart (rest : List Char) : List Char :=
  (rest.dropWhile isSlash).drop (authorityPart rest).length

/-- The address without its query, from what is sent of a text. -/
def resource? (sent : List Char) : Option Url :=
  (scheme? sent).bind fun (isSecure, rest) =>
    (authority? isSecure (authorityPart rest)).map fun (host, port) => {
      isSecure, host, port
      segments := pathSegments ((targetPart rest).takeWhile (· ≠ '?'))
      query := none }

theorem read?_map (text : String) :
    (read? text).map (fun u => { u with query := none }) =
      resource? ((cleaned text).takeWhile (· ≠ '#')) := by
  unfold read? resource?
  dsimp only
  cases scheme? ((cleaned text).takeWhile (· ≠ '#')) with
  | none => rfl
  | some found =>
    obtain ⟨isSecure, rest⟩ := found
    simp only [Option.bind_some, Option.map_map]
    refine congrArg (fun f => Option.map f _) (funext fun service => ?_)
    rw [← Text.before_splitOnce]
    split
    next path query hmark =>
      rw [show Text.splitOnce '?' (targetPart rest) = some (path, query) from hmark]
      rfl
    next hmark =>
      rw [show Text.splitOnce '?' (targetPart rest) = none from hmark]
      rfl

theorem resource?_eq_some_iff {sent : List Char} {u : Url} :
    resource? sent = some u ↔ ∃ rest, scheme? sent = some (u.isSecure, rest) ∧
      authority? u.isSecure (authorityPart rest) = some (u.host, u.port) ∧
        u.segments = pathSegments ((targetPart rest).takeWhile (· ≠ '?')) ∧ u.query = none := by
  obtain ⟨isSecure, host, port, segments, query⟩ := u
  simp only [resource?, Option.bind_eq_some_iff, Option.map_eq_some_iff, Prod.exists, mk.injEq]
  constructor
  · rintro ⟨_, rest, hscheme, _, _, hauthority, rfl, rfl, rfl, hsegments, hquery⟩
    exact ⟨rest, hscheme, hauthority, hsegments.symm, hquery.symm⟩
  · rintro ⟨rest, hscheme, hauthority, hsegments, hquery⟩
    exact ⟨isSecure, rest, hscheme, host, port, hauthority, rfl, rfl, rfl, hsegments.symm,
      hquery.symm⟩

theorem scheme?_append (h : ':' ∉ rest ∨ (scheme? cs).isSome = true) :
    scheme? (cs ++ rest) = (scheme? cs).map fun found => (found.1, found.2 ++ rest) := by
  have hsplit : Text.splitOnce ':' (cs ++ rest) =
      (Text.splitOnce ':' cs).map fun found => (found.1, found.2 ++ rest) := by
    rcases h with h | h
    · exact Text.splitOnce_append_of_not_mem h
    · cases hcolon : Text.splitOnce ':' cs with
      | none => simp [scheme?, hcolon] at h
      | some found => exact Text.splitOnce_append_of_some hcolon rest
  unfold scheme?
  rw [hsplit]
  cases Text.splitOnce ':' cs with
  | none => rfl
  | some found =>
    simp only [Option.map_some, Option.bind_some]
    split <;> rfl

theorem mem_of_scheme? {isSecure : Bool} {behind : List Char}
    (h : scheme? cs = some (isSecure, behind)) {c : Char} (hc : c ∈ behind) : c ∈ cs := by
  obtain ⟨⟨name, others⟩, hsplit, hname⟩ := Option.bind_eq_some_iff.mp h
  rw [Text.eq_of_splitOnce hsplit]
  dsimp only at hname
  split at hname
  · cases hname
    exact List.mem_append_right _ (List.mem_cons_of_mem _ hc)
  · cases hname
    exact List.mem_append_right _ (List.mem_cons_of_mem _ hc)
  · cases hname

/-- The host ends where a slash is put behind it. -/
theorem parts_append (hne : cs.dropWhile isSlash ≠ [])
    (hrest : ∀ c ∈ rest.head?, c = '/') :
    authorityPart (cs ++ rest) =
        (cs.dropWhile isSlash).takeWhile inAuthority ∧
      targetPart (cs ++ rest) =
        (cs.dropWhile isSlash).dropWhile inAuthority ++ rest := by
  have hbehind : (cs ++ rest).dropWhile isSlash =
      cs.dropWhile isSlash ++ rest := by
    rw [List.dropWhile_append, if_neg (by simpa using hne)]
  have hend : rest.takeWhile inAuthority = [] := by
    cases rest with
    | nil => rfl
    | cons c tail => rw [hrest c rfl, List.takeWhile_cons_of_neg (by decide)]
  unfold targetPart authorityPart
  rw [hbehind]
  generalize cs.dropWhile isSlash = host
  have hauthority : (host ++ rest).takeWhile inAuthority = host.takeWhile inAuthority := by
    rw [List.takeWhile_append, hend, List.append_nil]
    split
    next hall => exact (List.takeWhile_sublist _).eq_of_length hall |>.symm
    next => rfl
  refine ⟨hauthority, ?_⟩
  rw [hauthority]
  have hsplit : host ++ rest = host.takeWhile inAuthority ++ (host.dropWhile inAuthority ++ rest) := by
    rw [← List.append_assoc, List.takeWhile_append_dropWhile]
  rw [hsplit, List.drop_left]

/-- What is put behind an address goes to the end of its path, up to a question mark. -/
theorem exists_path_of_resource? {b : Url} (hread : resource? (cs ++ List.replicate n '/') = some b)
    (hquery : '?' ∉ cs) :
    ∃ path, FollowsHost path ∧ b.segments = pathSegments (path ++ List.replicate n '/') ∧
      ∀ rest, resource? (cs ++ '/' :: rest) =
        some { b with segments := pathSegments (path ++ '/' :: rest.takeWhile (· ≠ '?')) } := by
  obtain ⟨behind, hscheme, hauthority, hsegments, hnone⟩ := resource?_eq_some_iff.mp hread
  have hslashes : ':' ∉ List.replicate n '/' := fun h => by simpa using List.eq_of_mem_replicate h
  rw [scheme?_append (.inl hslashes), Option.map_eq_some_iff] at hscheme
  obtain ⟨⟨isSecure, front⟩, hscheme, hpair⟩ := hscheme
  obtain ⟨rfl, rfl⟩ := Prod.mk.inj hpair
  have hstart : ∀ c ∈ (List.replicate n '/').head?, c = '/' := fun c hc =>
    List.eq_of_mem_replicate (List.mem_of_mem_head? hc)
  have hne : front.dropWhile isSlash ≠ [] := by
    -- Slashes alone name no host.
    intro hempty
    have hall : (List.replicate n '/').dropWhile isSlash = [] := by simp [isSlash]
    rw [authorityPart, List.dropWhile_append, if_pos (by simp [hempty]), hall] at hauthority
    cases hauthority
  have hmark : ∀ c ∈ (front.dropWhile isSlash).dropWhile inAuthority, c ≠ '?' := by
    rintro c hc rfl
    have hfront := (List.dropWhile_sublist _).subset ((List.dropWhile_sublist _).subset hc)
    exact hquery (mem_of_scheme? hscheme hfront)
  obtain ⟨hbase, htarget⟩ := parts_append hne hstart
  refine ⟨(front.dropWhile isSlash).dropWhile inAuthority, fun c hc => ?_, ?_, fun rest => ?_⟩
  · have hend := List.head?_dropWhile_not inAuthority (front.dropWhile isSlash)
    rw [Option.mem_def.mp hc] at hend
    have hmark := hmark c (List.mem_of_mem_head? hc)
    by_cases hslash : c = '\\'
    · exact if_pos hslash
    · rw [asSlash, if_neg hslash]
      simpa [inAuthority, hslash, hmark] using hend
  · rw [hsegments, htarget, List.takeWhile_eq_self_iff.mpr]
    intro c hc
    rcases List.mem_append.mp hc with hc | hc
    · simpa using hmark c hc
    · rw [List.eq_of_mem_replicate hc]
      rfl
  · have hslash : ∀ c ∈ ('/' :: rest).head?, c = '/' := fun c hc => (Option.some.inj hc).symm
    obtain ⟨hhost, hpath⟩ := parts_append hne hslash
    rw [hbase] at hauthority
    refine resource?_eq_some_iff.mpr ⟨front ++ '/' :: rest, ?_, ?_, ?_, hnone⟩
    · rw [scheme?_append (.inr (by rw [hscheme]; rfl)), hscheme]
      rfl
    · rwa [hhost]
    · rw [hpath, List.takeWhile_append_of_pos (by simpa using hmark),
        List.takeWhile_cons_of_pos (by decide)]

/-- What is kept of a path that is put behind an address. -/
def kept (cs : List Char) : List Char :=
  (((trimmedEnd cs).filter isKept).takeWhile (· ≠ '#')).takeWhile (· ≠ '?')

theorem trimmedEnd_sublist (cs : List Char) : (trimmedEnd cs).Sublist cs := by
  have hsub : (cs.reverse.dropWhile isEdge).reverse.Sublist cs.reverse.reverse :=
    (List.dropWhile_sublist isEdge).reverse
  rwa [List.reverse_reverse] at hsub

theorem kept_sublist_trimmedEnd (cs : List Char) : (kept cs).Sublist (trimmedEnd cs) :=
  ((List.takeWhile_sublist _).trans (List.takeWhile_sublist _)).trans List.filter_sublist

theorem kept_sublist (cs : List Char) : (kept cs).Sublist cs :=
  (kept_sublist_trimmedEnd cs).trans (trimmedEnd_sublist cs)

/-- A character that ends a path, or that no address is read with. -/
def isLost (c : Char) : Bool :=
  ['?', '#', '\t', '\n', '\r'].contains c

theorem isLost_eq_false_iff {c : Char} :
    isLost c = false ↔ isKept c = true ∧ c ≠ '#' ∧ c ≠ '?' := by
  simp [isLost, isKept, and_comm, and_assoc]

theorem isLost_of_mem_kept {c : Char} (h : c ∈ kept cs) : isLost c = false := by
  have hquery := List.mem_takeWhile_imp h
  have hinner := (List.takeWhile_sublist _).subset h
  have hfragment := List.mem_takeWhile_imp hinner
  have hkept := (List.mem_filter.mp ((List.takeWhile_sublist _).subset hinner)).2
  exact isLost_eq_false_iff.mpr ⟨hkept, of_decide_eq_true hfragment, of_decide_eq_true hquery⟩

/-- What stands before the end of a path stays. -/
theorem kept_append (h : ∀ c ∈ cs, isLost c = false) (hend : ∀ c ∈ cs.getLast?, isEdge c = false)
    (rest : List Char) : kept (cs ++ rest) = cs ++ kept rest := by
  have hkept (c : Char) (hc : c ∈ cs) := isLost_eq_false_iff.mp (h c hc)
  rw [kept, trimmedEnd_append hend, List.filter_append,
    List.filter_eq_self.mpr fun c hc => (hkept c hc).1,
    List.takeWhile_append_of_pos fun c hc => decide_eq_true (hkept c hc).2.1,
    List.takeWhile_append_of_pos fun c hc => decide_eq_true (hkept c hc).2.2]
  rfl

/-- A path is kept whole if nothing in it is lost and there is nothing to be taken off its end. -/
theorem kept_eq_self_iff :
    kept cs = cs ↔ (∀ c ∈ cs, isLost c = false) ∧ ∀ c ∈ cs.getLast?, isEdge c = false := by
  constructor
  · intro h
    refine ⟨fun c hc => isLost_of_mem_kept (h.symm ▸ hc), getLast?_of_trimmedEnd ?_⟩
    have hlength := (kept_sublist_trimmedEnd cs).length_le
    rw [h] at hlength
    exact (trimmedEnd_sublist cs).eq_of_length_le hlength
  · rintro ⟨hlost, hend⟩
    have hwhole := kept_append hlost hend []
    rwa [List.append_nil, show kept [] = [] from rfl, List.append_nil] at hwhole

/-- An address without a query and without a fragment, behind which nothing has to be taken off. -/
structure IsBase (base : String) : Prop where
  query : '?' ∉ base.toList
  fragment : '#' ∉ base.toList
  ending : ∀ c ∈ base.toList.getLast?, isEdge c = false

/-- What is sent of an address, and what is sent of it with a path behind it. -/
theorem sent_join {base : String} (h : IsBase base) :
    ∃ cs n, '?' ∉ cs ∧ (cleaned base).takeWhile (· ≠ '#') = cs ++ List.replicate n '/' ∧
      ∀ behind : String, (cleaned (join base behind)).takeWhile (· ≠ '#') = cs ++ '/' ::
        ((trimmedEnd (behind.toList.dropWhile (· = '/'))).filter isKept).takeWhile (· ≠ '#') := by
  obtain ⟨n, hn⟩ := exists_slashes base.toList
  have hjoin (behind : String) : (join base behind).toList =
      trimEndSlashes base.toList ++ '/' :: behind.toList.dropWhile (· = '/') :=
    String.toList_ofList
  generalize trimEndSlashes base.toList = front at hn hjoin
  have hslashes : ∀ c ∈ List.replicate n '/', isEdge c = false ∧ isKept c = true ∧ c ≠ '#' := by
    intro c hc
    rw [List.eq_of_mem_replicate hc]
    decide
  have hmem : ∀ c ∈ (front.dropWhile isEdge).filter isKept, c ∈ base.toList := by
    intro c hc
    rw [hn]
    exact List.mem_append_left _ ((List.dropWhile_sublist _).subset (List.mem_filter.mp hc).1)
  have hmark : ∀ c ∈ (front.dropWhile isEdge).filter isKept, decide (c ≠ '#') = true := by
    intro c hc
    simpa using fun hsame : c = '#' => h.fragment (hsame ▸ hmem c hc)
  refine ⟨(front.dropWhile isEdge).filter isKept, n, fun hc => h.query (hmem _ hc), ?_,
    fun behind => ?_⟩
  · have hstart : base.toList.dropWhile isEdge =
        front.dropWhile isEdge ++ List.replicate n '/' := by
      rw [hn]
      exact dropWhile_append_of_head isEdge _ fun c hc => (hslashes c (List.mem_of_mem_head? hc)).1
    have hending : ∀ c ∈ (base.toList.dropWhile isEdge).getLast?, isEdge c = false := by
      intro c hc
      refine h.ending c ?_
      rw [← List.takeWhile_append_dropWhile (p := isEdge) (l := base.toList), List.getLast?_append,
        Option.mem_def.mp hc]
      rfl
    rw [cleaned_eq, trimmedEnd_of_getLast? hending, hstart, List.filter_append,
      List.filter_eq_self.mpr fun c hc => (hslashes c hc).2.1, List.takeWhile_append_of_pos hmark,
      List.takeWhile_eq_self_iff.mpr fun c hc => decide_eq_true (hslashes c hc).2.2]
  · have hslash : ∀ c ∈ (front.dropWhile isEdge ++ ['/']).getLast?, isEdge c = false := by
      rw [List.getLast?_concat]
      rintro c ⟨⟩
      rfl
    rw [cleaned_eq, hjoin, dropWhile_append_of_head isEdge _ (by rintro c ⟨⟩; rfl), List.append_cons,
      trimmedEnd_append hslash, List.filter_append, List.filter_append, List.append_assoc,
      List.takeWhile_append_of_pos hmark]
    rfl

/-- **A path behind an address.** Whatever is put behind an address is read with it, and goes behind
the path that the address has itself, apart from the slashes at its end. -/
theorem read?_join {base : String} {b : Url} (h : IsBase base) (hread : read? base = some b) :
    ∃ path n, FollowsHost path ∧ b.segments = pathSegments (path ++ List.replicate n '/') ∧
      ∀ behind : String, ∃ u, read? (join base behind) = some u ∧
        (u.isSecure, u.host, u.port) = (b.isSecure, b.host, b.port) ∧
        u.segments = pathSegments (path ++ '/' :: kept (behind.toList.dropWhile (· = '/'))) := by
  obtain ⟨cs, n, hquery, hbase, hjoin⟩ := sent_join h
  have hmap := read?_map base
  rw [hread, hbase] at hmap
  obtain ⟨path, hpath, hsegments, hbehind⟩ := exists_path_of_resource? hmap.symm hquery
  refine ⟨path, n, hpath, hsegments, fun behind => ?_⟩
  have hread := read?_map (join base behind)
  rw [hjoin, hbehind] at hread
  obtain ⟨u, hu, hsame⟩ := Option.map_eq_some_iff.mp hread
  have hparts := Url.mk.inj hsame
  exact ⟨u, hu, by rw [hparts.1, hparts.2.1, hparts.2.2.1], hparts.2.2.2.1⟩

end Url

end Outreach
