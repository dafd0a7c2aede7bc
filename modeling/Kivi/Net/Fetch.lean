import Kivi.Net.Url

/-! The fetch client: the built-in pages, local files, and HTTP/1.0 over the platform's sockets. -/

namespace Kivi

/-- `WELCOME_PAGE`, served for `about:home` and `about:blank`. -/
def welcomePage : String :=
  "<!DOCTYPE html>\n" ++
  "<html>\n" ++
  "<head><title>Welcome to Kivi</title></head>\n" ++
  "<body>\n" ++
  "<h1>Welcome to Kivi Browser</h1>\n" ++
  "<p>A modern web browser for KikiOS with HTTPS support.</p>\n" ++
  "<hr>\n" ++
  "<h2>Try these links:</h2>\n" ++
  "<ul>\n" ++
  "<li><a href=\"https://example.com\">example.com</a> - A simple test page (HTTPS)</li>\n" ++
  "<li><a href=\"http://info.cern.ch\">info.cern.ch</a> - The first website ever</li>\n" ++
  "<li><a href=\"http://motherfuckingwebsite.com\">motherfuckingwebsite.com</a> - Clean HTML sites work best</li>\n" ++
  "<li><a href=\"https://www.google.com\">google.com</a> - Try HTTPS sites!</li>\n" ++
  "</ul>\n" ++
  "<hr>\n" ++
  "<h2>Features:</h2>\n" ++
  "<ul>\n" ++
  "<li>HTTP and HTTPS support with TLS 1.2</li>\n" ++
  "<li>HTML rendering with TTF fonts</li>\n" ++
  "<li>Link navigation and history</li>\n" ++
  "<li>Local file browsing (file://)</li>\n" ++
  "</ul>\n" ++
  "<hr>\n" ++
  "<p>Tip: Click the address bar to type a URL, press Enter to navigate.</p>\n" ++
  "<p>Use the back button or Page Up/Down to navigate.</p>\n" ++
  "</body>\n" ++
  "</html>"

/--
One behaviour of the platform services `fetch_url` and `fetch_file` call.

A receive is a poll: `recv` lists what the successive polls on a socket return after a request
was sent on it, an empty chunk standing for `None` or `b''`, and every poll after the list
returns nothing.
-/
structure Net where
  /-- `dns_resolve(host)`, zero on failure. -/
  dnsResolve : String → Nat
  /-- `tls_connect(ip, port, host)`, negative on failure. -/
  tlsConnect : Nat → Int → String → Int
  /-- `tcp_connect(ip, port)`, negative on failure. -/
  tcpConnect : Nat → Int → Int
  /-- The polls of `recv_fn(sock, 4096)` after `send_fn(sock, request)`. -/
  recv : Int → String → List (List UInt8)
  /-- `open(path)`, none on failure. -/
  openFile : String → Option Nat
  /-- `file_size(f)`. -/
  fileSize : Nat → Nat
  /-- `read(f, size, 0)`, none on failure. -/
  readFile : Nat → Nat → Option (List UInt8)

/-- One character per byte, as the loops `content += chr(b)` decode. -/
def latin1 (bytes : List UInt8) : String :=
  ⟨bytes.map fun b => Char.ofNat b.toNat⟩

/-- `fetch_file`: 404 when the file does not open, 500 when it cannot be read. -/
def fetchFile (net : Net) (path : String) : Int × String :=
  match net.openFile path with
  | none => (404, "File not found: " ++ path)
  | some f =>
    match net.readFile f (net.fileSize f) with
    | none => (500, "Failed to read file")
    | some data => (200, latin1 data)

/-- The receive loop of `fetch_url`: at most 100 idle polls before data, and it stops at the first idle poll after data. -/
def readLoop : List (List UInt8) → List UInt8 → Nat → List UInt8
  | polls, response, timeout =>
    if timeout < 100 then
      match polls with
      -- Every later poll is idle: the loop breaks on data, or counts its idle polls out.
      | [] => response
      | chunk :: rest =>
        if chunk = [] then
          if response ≠ [] then response else readLoop rest response (timeout + 1)
        else readLoop rest (response ++ chunk) 0
    else response

/-- `data.find(pattern)`: the first position where the pattern starts. -/
def findSeq (pattern : List UInt8) : List UInt8 → Option Nat
  | [] => if pattern = [] then some 0 else none
  | b :: rest => if pattern.isPrefixOf (b :: rest) then some 0 else (findSeq pattern rest).map (· + 1)

/-- `s.split(sep)` for a separator of two characters: the pieces between its occurrences, left to right. -/
def splitOnPair (first second : Char) : List Char → List (List Char)
  | [] => [[]]
  | [c] => [[c]]
  | c :: d :: rest =>
    if c = first ∧ d = second then [] :: splitOnPair first second rest
    else match splitOnPair first second (d :: rest) with
      | piece :: pieces => (c :: piece) :: pieces
      | [] => [[c]]

/-- The redirect statuses `(301, 302, 307, 308)`. -/
def redirectStatuses : List Int :=
  [301, 302, 307, 308]

/-- `parse_http_response`: the status from `int()` of the status line's second token, and the location of a redirect. -/
def parseHttpResponse (data : List UInt8) : Except PyError (Int × String) :=
  match findSeq [13, 10, 13, 10] data with
  | none => .ok (0, "Invalid HTTP response")
  | some sep =>
    let lines := splitOnPair '\r' '\n' (latin1 (data.take sep)).data
    let parts := (lines.headD []).splitOn ' '
    let body := latin1 (data.drop (sep + 4))
    let status : Except PyError Int :=
      if h : 2 ≤ parts.length then
        match pyInt ⟨parts[1]⟩ 10 with
        | some n => .ok n
        | none => .error .valueError
      else .ok 0
    status.bind fun status =>
      if status ∈ redirectStatuses then
        match (lines.drop 1).find? (fun line => startsWith (pyLower ⟨line⟩) "location:") with
        | some line => .ok (status, pyStrip ⟨line.drop 9⟩)
        | none => .ok (status, body)
      else .ok (status, body)

/-- The request `fetch_url` sends. -/
def httpRequest (path host : String) : String :=
  "GET " ++ path ++ " HTTP/1.0\r\n" ++ "Host: " ++ host ++ "\r\n" ++ "User-Agent: Kivi/1.0 (KikiOS)\r\n" ++
    "Connection: close\r\n" ++ "\r\n"

/-- `fetch_url`: the status and body of a URL, failures of the network being status 0 with a message. -/
def fetchUrl (net : Net) (url : String) : Except PyError (Int × String) :=
  if url = "about:home" ∨ url = "about:blank" then .ok (200, welcomePage)
  else do
    match ← parseUrl url with
    | .file path => pure (fetchFile net path)
    | .net scheme host port path =>
      let ip := net.dnsResolve host
      if ip = 0 then pure (0, "DNS lookup failed for " ++ host)
      else
        let sock := if scheme = "https" then net.tlsConnect ip port host else net.tcpConnect ip port
        if sock < 0 then pure (0, "Connection failed to " ++ host)
        else parseHttpResponse (readLoop (net.recv sock (httpRequest path host)) [] 0)

end Kivi
