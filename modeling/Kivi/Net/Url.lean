import Kivi.Python.StrLaws

/-! URLs as `parse_url` splits them and `resolve_url` rebuilds them. -/

namespace Kivi

/-- What `parse_url` returns: `('file', None, None, path)`, or a scheme with host, port and path. -/
inductive Target where
  | file (path : String)
  | net (scheme host : String) (port : Int) (path : String)
  deriving DecidableEq, Repr

/-- The path of a parsed URL. -/
def Target.path : Target → String
  | .file path => path
  | .net _ _ _ path => path

/-- The same target at another path. -/
def Target.withPath : Target → String → Target
  | .file _, path => .file path
  | .net scheme host port _, path => .net scheme host port path

/-- `parse_url`: the port is read by `int()`, which raises on anything but a number. -/
def parseUrl (url : String) : Except PyError Target :=
  if startsWith url "file://" then .ok (.file ⟨url.data.drop 7⟩)
  else
    let (scheme, rest, defaultPort) : String × List Char × Int :=
      if startsWith url "https://" then ("https", url.data.drop 8, 443)
      else if startsWith url "http://" then ("http", url.data.drop 7, 80)
      else ("http", url.data, 80)
    -- The authority ends at the first `/`, which begins the path.
    let (hostPort, path) : List Char × List Char :=
      match findChar '/' rest with
      | none => (rest, ['/'])
      | some slash => (rest.take slash, rest.drop slash)
    match findChar ':' hostPort with
    | none => .ok (.net scheme ⟨hostPort⟩ defaultPort ⟨path⟩)
    | some colon =>
      match pyInt ⟨hostPort.drop (colon + 1)⟩ 10 with
      | some port => .ok (.net scheme ⟨hostPort.take colon⟩ port ⟨path⟩)
      | none => .error .valueError

/-- `path.rsplit('/', 1)[0]`: the path before its last `/`, or the whole path when it has none. -/
def dirOf (path : List Char) : List Char :=
  if '/' ∈ path then ((path.reverse.dropWhile (· ≠ '/')).reverse).dropLast else path

/-- Whether a URL carries one of the prefixes `resolve_url` passes through unchanged. -/
def isAbsoluteUrl (url : String) : Bool :=
  startsWith url "http://" || startsWith url "https://" || startsWith url "file://" ||
    startsWith url "about:"

/-- `resolve_url`: absolute URLs pass; others replace or extend the base path, with no `.` or `..` rules. -/
def resolveUrl (baseUrl relUrl : String) : Except PyError String :=
  if isAbsoluteUrl relUrl then .ok relUrl
  else do
    let target ← parseUrl baseUrl
    let newPath : String :=
      if startsWith relUrl "/" then relUrl else ⟨dirOf target.path.data⟩ ++ "/" ++ relUrl
    match target with
    | .file _ => pure ("file://" ++ newPath)
    | .net scheme host port _ =>
      -- The default port of the scheme is left out.
      let result := scheme ++ "://" ++ host
      let result :=
        if (scheme = "http" ∧ port ≠ 80) ∨ (scheme = "https" ∧ port ≠ 443) then result ++ ":" ++ toString port
        else result
      pure (result ++ newPath)

/-- An absolute URL resolves to itself, whatever the base. -/
theorem resolveUrl_of_absolute {rel : String} (absolute : isAbsoluteUrl rel = true) (base : String) :
    resolveUrl base rel = .ok rel :=
  if_pos absolute

/-- An absolute URL is not empty. -/
theorem ne_empty_of_isAbsoluteUrl {u : String} (absolute : isAbsoluteUrl u = true) : u ≠ "" := by
  rintro rfl
  exact absurd absolute (by decide)

/-- `parse_url` reads a network URL with the scheme `http` or `https`. -/
theorem parseUrl_scheme {url scheme host path : String} {port : Int}
    (parsed : parseUrl url = .ok (.net scheme host port path)) : scheme = "http" ∨ scheme = "https" := by
  unfold parseUrl at parsed
  split at parsed
  · cases parsed
  · -- The scheme is fixed before the authority is read.
    generalize chosen : (if startsWith url "https://" = true then ("https", url.data.drop 8, (443 : Int))
      else if startsWith url "http://" = true then ("http", url.data.drop 7, 80) else ("http", url.data, 80)) = picked at parsed
    obtain ⟨name, rest, defaultPort⟩ := picked
    have named : name = "http" ∨ name = "https" := by
      split_ifs at chosen <;> cases chosen <;> simp
    dsimp only at parsed
    -- Past the scheme, only the port is read: the two results carry the scheme as chosen.
    split at parsed
    · cases parsed
      exact named
    · split at parsed
      · cases parsed
        exact named
      · cases parsed

/-- `resolve_url` returns an absolute URL: the one it was given, or one it builds behind a scheme. -/
theorem resolveUrl_absolute {base rel url : String} (resolved : resolveUrl base rel = .ok url) :
    isAbsoluteUrl url = true := by
  unfold resolveUrl at resolved
  split at resolved
  · cases resolved
    assumption
  · cases parsed : parseUrl base with
    | error _ =>
      rw [parsed] at resolved
      cases resolved
    | ok target =>
      rw [parsed] at resolved
      cases target with
      | file path =>
        cases resolved
        simp [isAbsoluteUrl, startsWith, List.isPrefixOf]
      | net scheme host port path =>
        cases resolved
        rcases parseUrl_scheme parsed with rfl | rfl <;> split <;> simp [isAbsoluteUrl, startsWith, List.isPrefixOf]

/-! ## Resolving, then parsing -/

/-- A network URL `parse_url` reads has a host with no `/` or `:`, and a path that starts with `/`. -/
theorem parseUrl_net_shape {url scheme host path : String} {port : Int}
    (parsed : parseUrl url = .ok (.net scheme host port path)) :
    '/' ∉ host.data ∧ ':' ∉ host.data ∧ ∃ tail, path.data = '/' :: tail := by
  unfold parseUrl at parsed
  split at parsed
  · cases parsed
  · generalize (if startsWith url "https://" = true then ("https", url.data.drop 8, (443 : Int))
      else if startsWith url "http://" = true then ("http", url.data.drop 7, 80) else ("http", url.data, 80)) = picked at parsed
    obtain ⟨name, rest, defaultPort⟩ := picked
    -- Whichever `/` ends the authority, the host and port are read from before it.
    have authority : ∀ hostPort pathChars : List Char, '/' ∉ hostPort → (∃ tail, pathChars = '/' :: tail) →
        (match findChar ':' hostPort with
          | none => Except.ok (Target.net name ⟨hostPort⟩ defaultPort ⟨pathChars⟩)
          | some colon =>
            match pyInt ⟨hostPort.drop (colon + 1)⟩ 10 with
            | some port => Except.ok (Target.net name ⟨hostPort.take colon⟩ port ⟨pathChars⟩)
            | none => Except.error PyError.valueError) = Except.ok (Target.net scheme host port path) →
        '/' ∉ host.data ∧ ':' ∉ host.data ∧ ∃ tail, path.data = '/' :: tail := by
      intro hostPort pathChars bare rooted read
      split at read
      · rename_i absent
        cases read
        exact ⟨bare, findChar_eq_none.mp absent, rooted⟩
      · rename_i colon found
        split at read
        · cases read
          exact ⟨fun member => bare (List.mem_of_mem_take member), (findChar_eq_some found).1, rooted⟩
        · cases read
    dsimp only at parsed
    cases slashAt : findChar '/' rest with
    | none =>
      simp only [slashAt] at parsed
      exact authority rest ['/'] (findChar_eq_none.mp slashAt) ⟨[], rfl⟩ parsed
    | some slash =>
      simp only [slashAt] at parsed
      exact authority _ _ (findChar_eq_some slashAt).1 ⟨_, (findChar_eq_some slashAt).2⟩ parsed

/-- Past a scheme, `parse_url` reads the host and port before the first `/`, and the path from there on. -/
theorem parseUrl_authority {name : String} {defaultPort : Int}
    (known : (name, defaultPort) = ("http", 80) ∨ (name, defaultPort) = ("https", 443)) (hostPort tail : List Char)
    (slashFree : '/' ∉ hostPort) :
    parseUrl (name ++ "://" ++ ⟨hostPort ++ '/' :: tail⟩) =
      match findChar ':' hostPort with
      | none => Except.ok (Target.net name ⟨hostPort⟩ defaultPort ⟨'/' :: tail⟩)
      | some colon =>
        match pyInt ⟨hostPort.drop (colon + 1)⟩ 10 with
        | some port => Except.ok (Target.net name ⟨hostPort.take colon⟩ port ⟨'/' :: tail⟩)
        | none => Except.error PyError.valueError := by
  -- The scheme chosen is the one printed, and what follows it is read up to the first `/`.
  unfold parseUrl
  rcases known with known | known <;> cases known <;>
    simp [startsWith, List.isPrefixOf, findChar_append_cons slashFree]

/-- `parse_url` reads back a network URL as `resolve_url` prints it: the default port left out, any other written out. -/
theorem parseUrl_printed {scheme : String} (host tail : List Char) (port : Int)
    (known : scheme = "http" ∨ scheme = "https") (slashFree : '/' ∉ host) (colonFree : ':' ∉ host) :
    parseUrl ((if (scheme = "http" ∧ port ≠ 80) ∨ (scheme = "https" ∧ port ≠ 443) then
        scheme ++ "://" ++ ⟨host⟩ ++ ":" ++ toString port else scheme ++ "://" ++ ⟨host⟩) ++ ⟨'/' :: tail⟩) =
      .ok (.net scheme ⟨host⟩ port ⟨'/' :: tail⟩) := by
  obtain ⟨defaultPort, named, omitted⟩ : ∃ defaultPort : Int,
      ((scheme, defaultPort) = ("http", 80) ∨ (scheme, defaultPort) = ("https", 443)) ∧
        ((scheme = "http" ∧ port ≠ 80 ∨ scheme = "https" ∧ port ≠ 443) ↔ port ≠ defaultPort) := by
    rcases known with rfl | rfl
    · exact ⟨80, .inl rfl, by simp⟩
    · exact ⟨443, .inr rfl, by simp⟩
  by_cases default : port = defaultPort
  · -- The default port is left out, and the host alone is read.
    rw [if_neg (mt omitted.mp (not_not.mpr default)), default]
    rw [show scheme ++ "://" ++ ⟨host⟩ ++ ⟨'/' :: tail⟩ = scheme ++ "://" ++ ⟨host ++ '/' :: tail⟩ from
      String.ext (by simp), parseUrl_authority named host tail slashFree, findChar_eq_none.mpr colonFree]
  · -- Any other port is written after a `:`, and `int()` reads it back.
    have portFree : '/' ∉ host ++ ':' :: (toString port).data := by
      simp only [List.mem_append, List.mem_cons, not_or]
      refine ⟨slashFree, by decide, fun member => ?_⟩
      exact (mem_toString member).elim (by decide) fun ⟨d, small, same⟩ => (digitChar_read d small).2.2.2.2.2 same.symm
    have readBack : (host ++ ':' :: (toString port).data).drop (host.length + 1) = (toString port).data := by
      simp [List.drop_append_eq_append_drop]
    rw [if_pos (omitted.mpr default)]
    rw [show scheme ++ "://" ++ ⟨host⟩ ++ ":" ++ toString port ++ ⟨'/' :: tail⟩ =
        scheme ++ "://" ++ ⟨host ++ ':' :: (toString port).data ++ '/' :: tail⟩ from String.ext (by simp),
      parseUrl_authority named _ tail portFree, findChar_append_cons colonFree]
    dsimp only
    rw [readBack, (pyInt_toString port : pyInt ⟨(toString port).data⟩ 10 = some port)]
    simp only [List.take_left]

/-- The directory `resolve_url` keeps of a path holding a `/` is a prefix of it. -/
theorem dirOf_prefix {path : List Char} (held : '/' ∈ path) : dirOf path <+: path := by
  rw [dirOf, if_pos held]
  exact (List.dropLast_prefix _).trans (List.reverse_suffix.mp (by simpa using List.dropWhile_suffix _))

/-- Behind the directory of a path from `/` on, a `/` and a reference make a path from `/` on again. -/
theorem dirOf_rooted (tail rel : List Char) : ∃ rest, dirOf ('/' :: tail) ++ '/' :: rel = '/' :: rest := by
  rcases shape : dirOf ('/' :: tail) with _ | ⟨c, cs⟩
  · exact ⟨rel, rfl⟩
  · -- A directory that is not empty starts where the path does.
    obtain ⟨more, same⟩ := shape ▸ dirOf_prefix (List.mem_cons_self '/' tail)
    exact ⟨cs ++ '/' :: rel, by rw [(List.cons.inj same).1]; rfl⟩

/--
For every base `parse_url` reads and every reference that is not absolute, `parse_url` reads the URL
`resolve_url` builds as the base's scheme, host and port at the new path: the reference when it starts with
`/`, else the base's directory, `/` and the reference, where the directory is the path up to its last `/`, or
the whole path when it has none.
-/
theorem parseUrl_resolveUrl {base rel : String} {target : Target} (parsed : parseUrl base = .ok target)
    (relative : isAbsoluteUrl rel = false) :
    ∃ url, resolveUrl base rel = .ok url ∧
      parseUrl url = .ok (target.withPath (if startsWith rel "/" then rel else ⟨dirOf target.path.data⟩ ++ "/" ++ rel)) := by
  unfold resolveUrl
  rw [if_neg (by simp [relative]), parsed]
  dsimp only [bind, Except.bind]
  generalize newPath : (if startsWith rel "/" = true then rel else ⟨dirOf target.path.data⟩ ++ "/" ++ rel) = path'
  cases target with
  | file path =>
    -- A file URL keeps everything after `file://` as its path.
    refine ⟨_, rfl, ?_⟩
    unfold parseUrl
    rw [if_pos (by simp [startsWith, List.isPrefixOf])]
    exact congrArg (fun p => Except.ok (Target.file p)) (String.ext (by simp))
  | net scheme host port path =>
    obtain ⟨slashFree, colonFree, tail, rooted⟩ := parseUrl_net_shape parsed
    -- The new path starts with `/`, so the authority ends right before it.
    obtain ⟨rest, start⟩ : ∃ rest, path'.data = '/' :: rest := by
      rw [← newPath]
      split
      · rename_i slashed
        simp only [startsWith] at slashed
        rcases rel with ⟨_ | ⟨c, cs⟩⟩
        · cases slashed
        · simp [List.isPrefixOf] at slashed
          exact ⟨cs, by simp [← slashed]⟩
      · obtain ⟨rest, same⟩ := dirOf_rooted tail rel.data
        exact ⟨rest, by simp [Target.path, rooted, same]⟩
    obtain ⟨hostChars⟩ := host
    obtain ⟨pathChars⟩ := path'
    cases start
    exact ⟨_, rfl, parseUrl_printed hostChars rest port (parseUrl_scheme parsed) slashFree colonFree⟩

/--
`resolve_url` keeps the base's scheme, host and port for every base `parse_url` reads, but its directory is the
whole path when the path has no `/`, which only a file base has: `file://index.html` and `b.html` give the path
`index.html/b.html`, not `/b.html`.
-/
theorem resolveUrl_file_without_slash :
    (∀ (base rel : String) (target : Target), parseUrl base = .ok target → isAbsoluteUrl rel = false →
      ∃ url, resolveUrl base rel = .ok url ∧
        parseUrl url = .ok (target.withPath (if startsWith rel "/" then rel else ⟨dirOf target.path.data⟩ ++ "/" ++ rel))) ∧
      resolveUrl "file://index.html" "b.html" = .ok "file://index.html/b.html" ∧
      parseUrl "file://index.html/b.html" = .ok (.file "index.html/b.html") :=
  ⟨fun _ _ _ parsed relative => parseUrl_resolveUrl parsed relative, by decide, by decide⟩

/-! ## Resolving twice -/

/-- A URL `resolve_url` returns resolves to itself against any base: it is absolute, so it passes unchanged. -/
theorem resolveUrl_resolved {base rel url : String} (resolved : resolveUrl base rel = .ok url) (base' : String) :
    resolveUrl base' url = .ok url :=
  resolveUrl_of_absolute (resolveUrl_absolute resolved) base'

/-- A page name resolved against a page of a site, then against a file base. -/
theorem resolveUrl_resolved_page :
    resolveUrl "http://a.com/x/y.html" "b.html" = .ok "http://a.com/x/b.html" ∧
      resolveUrl "file://index.html" "http://a.com/x/b.html" = .ok "http://a.com/x/b.html" :=
  have resolved : resolveUrl "http://a.com/x/y.html" "b.html" = .ok "http://a.com/x/b.html" := by decide
  ⟨resolved, resolveUrl_resolved resolved "file://index.html"⟩

end Kivi
