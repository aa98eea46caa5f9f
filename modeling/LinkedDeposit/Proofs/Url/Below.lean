import LinkedDeposit.Url.Basic
import LinkedDeposit.Proofs.Text.Cutting
import LinkedDeposit.Text.Cut

/-!
# Addresses below an address

A client makes new addresses from those that it was given: it cuts the slashes at the end and puts
path segments behind. What is made from an http URL in this way is an http URL on the same host,
since a slash ends the authority wherever the rest of the URL begins.

Results:
* `ofAuthority?_append`: an authority names a server, whatever path is behind it.
* `exists_front`: an http URL is a front and a path, and what is read from the front does not depend
  on the path (`Front.ofString?_append`).
* `isAddress_below`: addresses below an address are addresses.
-/

namespace LinkedDeposit

namespace Text

theorem toList_trimSlashes (s : String) :
    (trimSlashes s).toList = trimRight (· = '/') s.toList := by
  simp [trimSlashes, trimRight]

theorem last_trimSlashes (s : String) :
    ∀ c ∈ (trimSlashes s).toList.getLast?, decide (c = '/') = false := by
  intro c hc
  refine decide_eq_false fun slash => getLast?_trimSlashes s ?_
  rw [← slash]
  exact hc

/-- Behind a text without slashes at its end, the rest is cut by itself. -/
theorem trimSlashes_trimmed (s : String) (rest : List Char) :
    trimSlashes (trimSlashes s ++ String.ofList rest) =
      trimSlashes s ++ String.ofList (trimRight (· = '/') rest) := by
  refine String.toList_injective ?_
  rw [toList_trimSlashes, String.toList_append, trimRight_append _ (last_trimSlashes s)]
  simp

/-- Cutting the slashes once cuts all of them. -/
theorem trimSlashes_trimSlashes (s : String) : trimSlashes (trimSlashes s) = trimSlashes s := by
  simpa [trimRight] using trimSlashes_trimmed s []

end Text

namespace Url

/-- Whether a text is the address of a resource: an absolute http URL with no blank in it. -/
def isAddress (s : String) : Bool :=
  (ofString? s).any isHttp && s.toList.all fun c => 0x20 < c.toNat

theorem isAddress_iff {s : String} : isAddress s = true ↔
    (∃ url, ofString? s = some url ∧ url.isHttp = true) ∧ ∀ c ∈ s.toList, 0x20 < c.toNat := by
  unfold isAddress
  cases ofString? s with
  | none => simp
  | some url => simp

/-- A text without blanks counts as a whole. -/
theorem significant_eq {s : String} (h : ∀ c ∈ s.toList, 0x20 < c.toNat) :
    significant s = s.toList := by
  have plain : ∀ c ∈ s.toList, (fun c : Char => decide (c.toNat ≤ 0x20)) c = false :=
    fun c hc => by simpa using h c hc
  have front : s.toList.dropWhile (fun c => c.toNat ≤ 0x20) = s.toList :=
    Text.dropWhile_eq_self fun c hc => plain c (List.mem_of_head? hc)
  have back : Text.trimRight (fun c => c.toNat ≤ 0x20) s.toList = s.toList := by
    have cut := Text.trimRight_append (p := fun c => decide (c.toNat ≤ 0x20)) (a := s.toList) []
      fun c hc => plain c (List.mem_of_getLast? hc)
    simpa [Text.trimRight] using cut
  unfold significant Text.trimBoth
  rw [front, back, List.filter_eq_self]
  intro c hc
  have blank := h c hc
  have tab : c ≠ '\t' := by rintro rfl; revert blank; decide
  have newline : c ≠ '\n' := by rintro rfl; revert blank; decide
  have carriage : c ≠ '\r' := by rintro rfl; revert blank; decide
  simp [tab, newline, carriage]

/-- What follows the scheme can be anything else. -/
theorem scheme?_eq_some {s rest : List Char} {scheme : String} (h : scheme? s = some (scheme, rest)) :
    ∃ name, s = name ++ ':' :: rest ∧
      ∀ rest', scheme? (name ++ ':' :: rest') = some (scheme, rest') := by
  let name := s.takeWhile isSchemeChar
  have cut : name ++ s.drop name.length = s := by
    rw [Text.drop_takeWhile]
    exact List.takeWhile_append_dropWhile
  have reads (rest' : List Char) : (name ++ ':' :: rest').takeWhile isSchemeChar = name := by
    refine Text.takeWhile_append_stop (List.all_eq_true.mp List.all_takeWhile) fun c hc => ?_
    obtain rfl : ':' = c := Option.some.inj hc
    decide
  unfold scheme? at h
  dsimp only at h
  split at h
  case h_2 => cases h
  case h_1 rest₁ colon =>
    split at h
    case isFalse => cases h
    case isTrue letter =>
      obtain ⟨rfl, rfl⟩ := Prod.mk.inj (Option.some.inj h)
      refine ⟨name, ?_, fun rest' => ?_⟩
      · rw [← cut]
        exact congrArg (name ++ ·) colon
      · unfold scheme?
        rw [reads]
        dsimp only
        rw [List.drop_left]
        exact if_pos letter

/-! ## Authorities -/

theorem scheme_of_ofFile? {s : List Char} {url : Url} (h : ofFile? s = some url) :
    url.scheme = "file" := by
  unfold ofFile? at h
  split at h
  · split at h
    · dsimp only at h
      split at h
      · exact Option.some.inj h ▸ rfl
      · obtain ⟨host, -, rfl⟩ := Option.map_eq_some_iff.mp h
        rfl
    · exact Option.some.inj h ▸ rfl
  · exact Option.some.inj h ▸ rfl

theorem scheme_of_ofAuthority? {k : SchemeKind} {scheme : String} {s : List Char} {url : Url}
    (h : ofAuthority? k scheme s = some url) : url.scheme = scheme := by
  unfold ofAuthority? at h
  dsimp only at h
  split at h
  · cases h
  · split at h
    · split at h
      · cases h
      · exact Option.some.inj h ▸ rfl
    · split at h
      all_goals
        obtain ⟨host, -, h⟩ := Option.bind_eq_some_iff.mp h
        obtain ⟨port, -, h⟩ := Option.bind_eq_some_iff.mp h
        exact Option.some.inj h ▸ rfl

/-- The host and the port of a special authority. -/
def server? (authority : List Char) : Option (String × Option Nat) :=
  let (hostText, portText) := hostPart false (splitUser authority).2
  if hostText.isEmpty then none
  else do
    let host ← specialHost? hostText
    let port ← port? portText
    return (String.ofList host, port)

/-- **A special authority names the server, whatever path is behind it.** -/
theorem ofAuthority?_append (scheme : String) {authority path : List Char}
    (run : ∀ c ∈ authority, endsAuthority .special c = false)
    (stop : ∀ c ∈ path.head?, endsAuthority .special c = true) :
    ofAuthority? .special scheme (authority ++ path) =
      (server? authority).map fun (host, port) => ⟨scheme, host, port, String.ofList path⟩ := by
  have cut : (authority ++ path).takeWhile (! endsAuthority .special ·) = authority :=
    Text.takeWhile_append_stop (fun c hc => by simp [run c hc]) fun c hc => by simp [stop c hc]
  unfold ofAuthority? server?
  rw [cut]
  dsimp only
  rw [List.drop_left]
  by_cases empty : (hostPart false (splitUser authority).2).1.isEmpty
  · simp [empty]
  · cases specialHost? (hostPart false (splitUser authority).2).1 with
    | none => simp [empty]
    | some host =>
      cases port? (hostPart false (splitUser authority).2).2 with
      | none => simp [empty]
      | some port => simp [empty]

/-! ## Addresses -/

theorem isHttp_iff {url : Url} :
    url.isHttp = true ↔ url.scheme = "http" ∨ url.scheme = "https" := by
  simp [isHttp]

theorem special_of_http {scheme : String} (h : scheme = "http" ∨ scheme = "https") :
    SchemeKind.of scheme = .special := by
  rcases h with rfl | rfl
  · decide
  · decide

/-- The slashes between the scheme and the authority. -/
def isSlash (c : Char) : Bool := c = '/' || c = '\\'

/-- What follows the scheme of an http URL is read as a special authority. -/
theorem ofAuthority?_of_ofString? {s scheme : String} {rest : List Char} {url : Url}
    (named : scheme? (significant s) = some (scheme, rest)) (read : ofString? s = some url)
    (http : url.isHttp = true) :
    ofAuthority? .special scheme (rest.dropWhile isSlash) = some url := by
  unfold ofString? at read
  rw [named] at read
  dsimp only [Option.bind_eq_bind, Option.bind_some] at read
  cases kind : SchemeKind.of scheme with
  | file =>
    rw [kind] at read
    rw [isHttp, scheme_of_ofFile? read] at http
    cases http
  | special =>
    rw [kind] at read
    exact read
  | other =>
    rw [kind] at read
    have same : url.scheme = scheme := by
      dsimp only at read
      split at read
      · exact scheme_of_ofAuthority? read
      · exact Option.some.inj read ▸ rfl
    rw [special_of_http (same ▸ isHttp_iff.mp http)] at kind
    cases kind

/-- The text of an http URL before its path: a scheme, slashes, and an authority that names a
server. -/
structure Front where
  name : List Char
  slashes : List Char
  authority : List Char
  scheme : String
  host : String
  port : Option Nat
  reads : ∀ rest, scheme? (name ++ ':' :: rest) = some (scheme, rest)
  http : scheme = "http" ∨ scheme = "https"
  skips : ∀ c ∈ slashes, isSlash c = true
  run : ∀ c ∈ authority, endsAuthority .special c = false
  served : server? authority = some (host, port)

namespace Front

variable (f : Front)

def text : List Char := f.name ++ ':' :: (f.slashes ++ f.authority)

theorem authority_ne_nil : f.authority ≠ [] := by
  intro empty
  have served := f.served
  rw [empty] at served
  cases served

/-- No character of an authority is a slash. -/
theorem not_isSlash {c : Char} (h : c ∈ f.authority) : isSlash c = false := by
  have inside := f.run c h
  simp only [endsAuthority, Bool.or_eq_false_iff] at inside
  simpa [isSlash, inside.1.1.1] using inside.2

theorem getLast?_text {c : Char} (h : c ∈ f.text.getLast?) : c ≠ '/' := by
  have last : f.text = (f.name ++ ':' :: f.slashes) ++ f.authority := by simp [text]
  rw [last, List.getLast?_append, List.getLast?_eq_some_getLast f.authority_ne_nil] at h
  obtain rfl := Option.some.inj h
  intro slash
  have inside := f.not_isSlash (List.getLast_mem f.authority_ne_nil)
  rw [slash] at inside
  revert inside
  decide

variable {path : List Char}

/-- The slashes end where the authority begins. -/
theorem dropWhile_isSlash :
    (f.slashes ++ (f.authority ++ path)).dropWhile isSlash = f.authority ++ path := by
  rw [List.dropWhile_append_of_pos f.skips]
  refine Text.dropWhile_eq_self fun c hc => ?_
  rw [List.head?_append, List.head?_eq_some_head f.authority_ne_nil] at hc
  obtain rfl := Option.some.inj hc
  exact f.not_isSlash (List.head_mem f.authority_ne_nil)

/-- What is read from a front and a path does not depend on the path. -/
theorem ofString?_append (stop : ∀ c ∈ path.head?, endsAuthority .special c = true)
    (plain : ∀ c ∈ f.text ++ path, 0x20 < c.toNat) :
    ofString? (String.ofList (f.text ++ path)) =
      some ⟨f.scheme, f.host, f.port, String.ofList path⟩ := by
  have chars : ∀ c ∈ (String.ofList (f.text ++ path)).toList, 0x20 < c.toNat := by
    rwa [String.toList_ofList]
  unfold ofString?
  rw [significant_eq chars, String.toList_ofList, text, List.append_assoc, List.cons_append,
    List.append_assoc, f.reads]
  dsimp only [Option.bind_eq_bind, Option.bind_some]
  rw [special_of_http f.http]
  change ofAuthority? .special f.scheme ((f.slashes ++ (f.authority ++ path)).dropWhile isSlash) = _
  rw [f.dropWhile_isSlash, ofAuthority?_append f.scheme f.run stop, f.served]
  rfl

theorem isAddress_append (stop : ∀ c ∈ path.head?, endsAuthority .special c = true)
    (plain : ∀ c ∈ f.text ++ path, 0x20 < c.toNat) :
    isAddress (String.ofList (f.text ++ path)) = true := by
  refine isAddress_iff.mpr ⟨⟨_, f.ofString?_append stop plain, ?_⟩, ?_⟩
  · exact isHttp_iff.mpr f.http
  · rwa [String.toList_ofList]

end Front

/-- An http URL is a front and a path. -/
theorem exists_front {s : String} (h : isAddress s = true) :
    ∃ (f : Front) (path : List Char), s.toList = f.text ++ path ∧
      ∀ c ∈ path.head?, endsAuthority .special c = true := by
  let isPart : Char → Bool := (! endsAuthority .special ·)
  obtain ⟨⟨url, read, http⟩, plain⟩ := isAddress_iff.mp h
  obtain ⟨⟨scheme, rest⟩, named, -⟩ := Option.bind_eq_some_iff.mp read
  have server := ofAuthority?_of_ofString? named read http
  rw [significant_eq plain] at named
  obtain ⟨name, whole, reads⟩ := scheme?_eq_some named
  let slashes := rest.takeWhile isSlash
  let authority := (rest.dropWhile isSlash).takeWhile isPart
  let path := (rest.dropWhile isSlash).dropWhile isPart
  have run : ∀ c ∈ authority, endsAuthority .special c = false := fun c hc => by
    simpa [isPart] using List.all_eq_true.mp List.all_takeWhile c hc
  have stop : ∀ c ∈ path.head?, endsAuthority .special c = true := fun c hc => by
    have stops := List.head?_dropWhile_not isPart (rest.dropWhile isSlash)
    rw [hc] at stops
    simpa [isPart] using stops
  have behind : rest.dropWhile isSlash = authority ++ path :=
    (List.takeWhile_append_dropWhile).symm
  have parts : rest = slashes ++ (authority ++ path) := by
    rw [← behind, List.takeWhile_append_dropWhile]
  rw [behind, ofAuthority?_append scheme run stop] at server
  obtain ⟨⟨host, port⟩, served, rfl⟩ := Option.map_eq_some_iff.mp server
  refine ⟨⟨name, slashes, authority, scheme, host, port, reads, isHttp_iff.mp http,
    List.all_eq_true.mp List.all_takeWhile, run, served⟩, path, ?_, stop⟩
  calc s.toList = name ++ ':' :: rest := whole
    _ = name ++ ':' :: (slashes ++ (authority ++ path)) := congrArg (name ++ ':' :: ·) parts
    _ = _ := by simp [Front.text]

/-- What is left of a path without its last slashes, and another slash behind it, is a path. -/
theorem stops_trimRight {path rest : List Char}
    (stop : ∀ c ∈ path.head?, endsAuthority .special c = true) :
    ∀ c ∈ (Text.trimRight (· = '/') path ++ '/' :: rest).head?,
      endsAuthority .special c = true := by
  intro c hc
  rw [List.head?_append] at hc
  cases first : (Text.trimRight (· = '/') path).head? with
  | none =>
    rw [first] at hc
    obtain rfl := Option.some.inj hc
    decide
  | some c' =>
    rw [first] at hc
    obtain rfl := Option.some.inj hc
    obtain ⟨slashes, cut⟩ := Text.trimRight_isPrefix (· = '/') path
    refine stop c' ?_
    rw [← cut, List.head?_append, first]
    rfl

/-- **Addresses below an address are addresses.** -/
theorem isAddress_below {s : String} (h : isAddress s = true) (rest : String)
    (plain : ∀ c ∈ rest.toList, 0x20 < c.toNat) :
    isAddress (Text.trimSlashes s ++ "/" ++ rest) = true := by
  obtain ⟨f, path, whole, stop⟩ := exists_front h
  have plainFront : ∀ c ∈ f.text ++ path, 0x20 < c.toNat := whole ▸ (isAddress_iff.mp h).2
  have below : Text.trimSlashes s ++ "/" ++ rest =
      String.ofList (f.text ++ (Text.trimRight (· = '/') path ++ '/' :: rest.toList)) := by
    refine String.toList_injective ?_
    have cut : Text.trimRight (· = '/') (f.text ++ path) =
        f.text ++ Text.trimRight (· = '/') path :=
      Text.trimRight_append path fun c hc => decide_eq_false (f.getLast?_text hc)
    simp [Text.toList_trimSlashes, whole, cut]
  rw [below]
  refine f.isAddress_append (stops_trimRight stop) fun c hc => ?_
  rcases List.mem_append.mp hc with front | behind
  · exact plainFront c (List.mem_append_left _ front)
  · rcases List.mem_append.mp behind with kept | added
    · exact plainFront c (List.mem_append_right _ ((Text.trimRight_isPrefix _ path).subset kept))
    · rcases List.mem_cons.mp added with rfl | added
      · decide
      · exact plain c added

end Url

end LinkedDeposit
