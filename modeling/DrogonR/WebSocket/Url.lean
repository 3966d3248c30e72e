/-
# WebSocket.Url — the address of a client connection

`.dr_parse_ws_url` matches a URL against `^(ws|wss)://([^/?#]+)(.*)$`, ignoring case.  It gives
Drogon the scheme with the authority, to which it adds the default port unless there is a colon
in it, and whatever is left as the path of the request, or "/" if nothing is.

* `parse_ok_iff` — what is accepted is the text of `Parts`, and how it is taken apart;
* `ws_url_iff` — the result is an address with a port and a path exactly when nothing but a
  path follows the authority and, if there is a colon in it, its host comes with a port;
* `query_becomes_path` — the request target of `ws://host?x=1` is `?x=1`.
-/
import DrogonR.Theory.Cutoff
import DrogonR.R.Value

namespace DrogonR.WebSocket.Url

open DrogonR.Theory DrogonR.R.Value

set_option autoImplicit false

/-! ## The parser -/

/-- `[/?#]`. -/
def delimiter (c : Char) : Bool := c == '/' || c == '?' || c == '#'

def lowerCase (s : List Char) : List Char := s.map Char.toLower

def separator : List Char := [':', '/', '/']

def schemes : List (List Char) := [['w', 's'], ['w', 's', 's']]

/-- `^(ws|wss)://`: the scheme, and what follows. -/
def schemeAt (s : List Char) : Option (List Char × List Char) :=
  schemes.findSome? fun name =>
    if lowerCase (s.take name.length) = name ∧
        (s.drop name.length).take separator.length = separator then
      some (s.take name.length, s.drop (name.length + separator.length))
    else none

structure WsUrl where
  host : String
  path : String
  ssl : Bool
  deriving DecidableEq, Repr

def defaultPort (ssl : Bool) : List Char := if ssl then ['4', '4', '3'] else ['8', '0']

/-- What is returned for the three groups of the match. -/
def fromGroups (scheme authority rest : List Char) : WsUrl :=
  let scheme := lowerCase scheme
  let ssl := scheme = ['w', 's', 's']
  let authority := if ':' ∈ authority then authority else authority ++ ':' :: defaultPort ssl
  { host := String.ofList (scheme ++ separator ++ authority)
    path := if rest = [] then "/" else String.ofList rest
    ssl := ssl }

def mustLookLike (url : String) : String :=
  "`url` must look like ws://host[:port][/path] or wss://host[:port][/path]; got '" ++ url ++ "'"

/-- `.dr_parse_ws_url`. -/
def parseWsUrl (url : String) : Except String WsUrl :=
  match schemeAt url.toList with
  | some (scheme, after) =>
      let authority := after.takeWhile fun c => !delimiter c
      if authority = [] then .error (mustLookLike url)
      else .ok (fromGroups scheme authority (after.dropWhile fun c => !delimiter c))
  | none => .error (mustLookLike url)

/-! ## What is accepted -/

/-- `ws` or `wss` in any letter case. -/
def IsScheme (scheme : List Char) : Prop := lowerCase scheme ∈ schemes

instance (scheme : List Char) : Decidable (IsScheme scheme) :=
  inferInstanceAs (Decidable (lowerCase scheme ∈ schemes))

/-- A URL taken apart. -/
structure Parts where
  scheme : List Char
  authority : List Char
  rest : List Char
  isScheme : IsScheme scheme
  nonempty : authority ≠ []
  inside : ∀ c ∈ authority, delimiter c = false
  begins : ∀ c, rest.head? = some c → delimiter c = true

def Parts.text (parts : Parts) : List Char :=
  parts.scheme ++ separator ++ parts.authority ++ parts.rest

theorem schemeAt_some {s scheme after : List Char} (found : schemeAt s = some (scheme, after)) :
    IsScheme scheme ∧ s = scheme ++ separator ++ after := by
  obtain ⟨name, member, here⟩ := List.exists_of_findSome?_eq_some found
  split at here
  · rename_i both
    obtain ⟨lower, follows⟩ := both
    cases here
    constructor
    · rw [IsScheme, lower]
      exact member
    · have tail := List.take_append_drop separator.length (s.drop name.length)
      rw [follows, List.drop_drop] at tail
      rw [List.append_assoc, tail, List.take_append_drop]
  · cases here

theorem schemeAt_append {scheme : List Char} (isScheme : IsScheme scheme) (after : List Char) :
    schemeAt (scheme ++ separator ++ after) = some (scheme, after) := by
  have names : lowerCase scheme = ['w', 's'] ∨ lowerCase scheme = ['w', 's', 's'] := by
    simpa [IsScheme, schemes] using isScheme
  rcases names with two | three
  · obtain ⟨a, b, rfl⟩ : ∃ a b, scheme = [a, b] :=
      List.length_eq_two.mp (by simpa [lowerCase] using congrArg List.length two)
    simp only [lowerCase, List.map_cons, List.map_nil, List.cons.injEq, and_true] at two
    simp [schemeAt, schemes, separator, lowerCase, two]
  · -- the shorter name does not match: its colon would have to be a slash
    obtain ⟨a, b, c, rfl⟩ : ∃ a b c, scheme = [a, b, c] :=
      List.length_eq_three.mp (by simpa [lowerCase] using congrArg List.length three)
    simp only [lowerCase, List.map_cons, List.map_nil, List.cons.injEq, and_true] at three
    simp [schemeAt, schemes, separator, lowerCase, three]

/-- The authority is everything up to the first delimiter. -/
theorem span_authority (parts : Parts) :
    (parts.authority ++ parts.rest).takeWhile (fun c => !delimiter c) = parts.authority ∧
      (parts.authority ++ parts.rest).dropWhile (fun c => !delimiter c) = parts.rest := by
  have inside : ∀ c ∈ parts.authority, (!delimiter c) = true := fun c member => by
    rw [parts.inside c member]
    rfl
  refine Cutoff.span_eq_iff.mpr ⟨rfl, inside, fun c first => ?_⟩
  rw [parts.begins c first]
  rfl

def Parts.result (parts : Parts) : WsUrl := fromGroups parts.scheme parts.authority parts.rest

/-- Exactly the texts of parts are accepted. -/
theorem parse_ok_iff (url : String) (r : WsUrl) :
    parseWsUrl url = .ok r ↔ ∃ parts : Parts, parts.text = url.toList ∧ r = parts.result := by
  constructor
  · intro accepted
    unfold parseWsUrl at accepted
    split at accepted
    · rename_i scheme after found
      obtain ⟨isScheme, whole⟩ := schemeAt_some found
      simp only at accepted
      split at accepted
      · cases accepted
      · rename_i some_
        cases accepted
        obtain ⟨cut, inside, stop⟩ := Cutoff.span_eq_iff.mp
          (And.intro (Eq.refl (after.takeWhile fun c => !delimiter c)) rfl)
        refine ⟨⟨scheme, _, _, isScheme, some_, fun c member => ?_, fun c first => ?_⟩, ?_, rfl⟩
        · simpa using inside c member
        · simpa using stop c first
        · rw [Parts.text, List.append_assoc, ← cut, whole]
    · cases accepted
  · rintro ⟨parts, text, rfl⟩
    obtain ⟨authority, rest⟩ := span_authority parts
    have found : schemeAt url.toList = some (parts.scheme, parts.authority ++ parts.rest) := by
      rw [← text, Parts.text, List.append_assoc]
      exact schemeAt_append parts.isScheme _
    rw [parseWsUrl, found]
    simp only [authority, rest, if_neg parts.nonempty]
    rfl

/-! ## Ports -/

/-- What follows the user information, which ends at the last `@`; everything if there is none. -/
def afterUserInfo (authority : List Char) : List Char :=
  (authority.reverse.takeWhile fun c => c != '@').reverse

/-- What follows a bracketed address literal; everything if there is none. -/
def afterBracket : List Char → List Char
  | '[' :: inner => if ']' ∈ inner then (inner.dropWhile fun c => c != ']').drop 1 else '[' :: inner
  | authority => authority

/-- An authority without its user information and an address literal. -/
def hostPort (authority : List Char) : List Char := afterBracket (afterUserInfo authority)

/-- The port of an authority `[userinfo@]host[:port]`: the text after the first colon of the host
that is not in brackets. -/
def portOf (authority : List Char) : Option (List Char) :=
  if ':' ∈ hostPort authority then some (((hostPort authority).dropWhile fun c => c != ':').drop 1)
  else none

theorem afterUserInfo_append (authority : List Char) {tail : List Char} (plain : '@' ∉ tail) :
    afterUserInfo (authority ++ tail) = afterUserInfo authority ++ tail := by
  have goes : ∀ c ∈ tail.reverse, (c != '@') = true := by
    intro c member
    rw [bne_iff_ne]
    rintro rfl
    exact plain (List.mem_reverse.mp member)
  rw [afterUserInfo, List.reverse_append, List.takeWhile_append_of_pos goes, List.reverse_append,
    List.reverse_reverse, afterUserInfo]

theorem mem_of_mem_afterUserInfo {authority : List Char} {c : Char}
    (member : c ∈ afterUserInfo authority) : c ∈ authority := by
  rw [afterUserInfo, List.mem_reverse] at member
  exact List.mem_reverse.mp ((List.takeWhile_sublist _).subset member)

theorem after_first {c : Char} {front : List Char} (absent : c ∉ front) (back : List Char) :
    ((front ++ c :: back).dropWhile fun x => x != c).drop 1 = back := by
  have goes : ∀ x ∈ front, (x != c) = true := by
    intro x member
    rw [bne_iff_ne]
    rintro rfl
    exact absent member
  rw [List.dropWhile_append_of_pos goes]
  simp

theorem afterBracket_literal {inner : List Char} (absent : ']' ∉ inner) (tail : List Char) :
    afterBracket ('[' :: (inner ++ ']' :: tail)) = tail := by
  rw [afterBracket, if_pos (by simp), after_first absent]

theorem afterBracket_other {c : Char} (other : c ≠ '[') (s : List Char) :
    afterBracket (c :: s) = c :: s := by
  unfold afterBracket
  split
  · rename_i same
    cases same
    exact absurd rfl other
  · rfl

theorem afterBracket_open {s : List Char} (open_ : ']' ∉ s) : afterBracket s = s := by
  unfold afterBracket
  split
  · exact if_neg fun member => open_ (List.mem_cons_of_mem _ member)
  · rfl

theorem afterBracket_append (authority : List Char) {tail : List Char} (open_ : ']' ∉ tail) :
    afterBracket (authority ++ tail) = afterBracket authority ++ tail := by
  by_cases closed : ']' ∈ authority
  · cases authority with
    | nil => cases closed
    | cons c rest =>
        by_cases bracket : c = '['
        · subst bracket
          have inside : ']' ∈ rest := by simpa using closed
          obtain ⟨inner, back, rfl, absent⟩ := List.eq_append_cons_of_mem inside
          rw [List.cons_append, List.append_assoc, List.cons_append, afterBracket_literal absent,
            afterBracket_literal absent]
        · rw [List.cons_append, afterBracket_other bracket, afterBracket_other bracket]
          rfl
  · rw [afterBracket_open closed, afterBracket_open]
    exact fun member => (List.mem_append.mp member).elim closed open_

theorem mem_of_mem_afterBracket {authority : List Char} {c : Char}
    (member : c ∈ afterBracket authority) : c ∈ authority := by
  unfold afterBracket at member
  split at member
  · split at member
    · have kept := List.mem_of_mem_drop member
      exact List.mem_cons_of_mem _ ((List.dropWhile_sublist _).subset kept)
    · exact member
  · exact member

theorem mem_of_mem_hostPort {authority : List Char} {c : Char} (member : c ∈ hostPort authority) :
    c ∈ authority :=
  mem_of_mem_afterUserInfo (mem_of_mem_afterBracket member)

theorem hostPort_append (authority : List Char) {tail : List Char} (plain : '@' ∉ tail)
    (open_ : ']' ∉ tail) : hostPort (authority ++ tail) = hostPort authority ++ tail := by
  rw [hostPort, afterUserInfo_append authority plain, afterBracket_append _ open_, hostPort]

theorem portOf_none {authority : List Char} (absent : ':' ∉ authority) : portOf authority = none :=
  if_neg fun member => absent (mem_of_mem_hostPort member)

theorem portOf_append {authority port : List Char} (absent : ':' ∉ authority)
    (plain : '@' ∉ port) (open_ : ']' ∉ port) : portOf (authority ++ ':' :: port) = some port := by
  have host : hostPort (authority ++ ':' :: port) = hostPort authority ++ ':' :: port :=
    hostPort_append authority (by simpa using plain) (by simpa using open_)
  have before : ':' ∉ hostPort authority := fun member => absent (mem_of_mem_hostPort member)
  rw [portOf, host, if_pos (by simp), after_first before]

-- the colon of user information is not the one before a port
example : portOf "user:pw@host".toList = none := by decide

theorem defaultPort_plain (ssl : Bool) : '@' ∉ defaultPort ssl := by
  cases ssl <;> decide

theorem defaultPort_open (ssl : Bool) : ']' ∉ defaultPort ssl := by
  cases ssl <;> decide

theorem defaultPort_ne_nil (ssl : Bool) : defaultPort ssl ≠ [] := by
  cases ssl <;> decide

/-! ## What a split is for -/

def Parts.ssl (parts : Parts) : Bool := lowerCase parts.scheme = ['w', 's', 's']

/-- The host has a port, the given one or the default, the path can be requested, and together
they are the URL again, but for the letter case of the scheme, the default port and a slash. -/
structure Split (parts : Parts) (r : WsUrl) : Prop where
  host : ∃ authority port, r.host.toList = lowerCase parts.scheme ++ separator ++ authority ∧
    portOf authority = some port ∧ port ≠ [] ∧
      (authority = parts.authority ∨
        portOf parts.authority = none ∧ authority = parts.authority ++ ':' :: defaultPort parts.ssl)
  path : r.path.toList.head? = some '/'
  ssl : r.ssl = parts.ssl
  whole : ∃ port slash, r.host.toList ++ r.path.toList =
      lowerCase parts.scheme ++ separator ++ parts.authority ++ port ++ parts.rest ++ slash ∧
    (port = [] ∨ port = ':' :: defaultPort parts.ssl) ∧ (slash = [] ∨ slash = ['/'])

/-- Nothing but a path follows the authority, and if there is a colon in it, its host comes with a
port. -/
def Regular (parts : Parts) : Prop :=
  (parts.rest = [] ∨ parts.rest.head? = some '/') ∧
    (':' ∈ parts.authority → ∃ port, portOf parts.authority = some port ∧ port ≠ [])

/-- The authority with the port that the parser adds. -/
def Parts.address (parts : Parts) : List Char :=
  if ':' ∈ parts.authority then parts.authority
  else parts.authority ++ ':' :: defaultPort parts.ssl

theorem result_host (parts : Parts) :
    parts.result.host.toList = lowerCase parts.scheme ++ separator ++ parts.address := by
  rw [Parts.result, fromGroups]
  exact String.toList_ofList ..

theorem result_path (parts : Parts) :
    parts.result.path.toList = if parts.rest = [] then ['/'] else parts.rest := by
  simp only [Parts.result, fromGroups]
  split
  · rfl
  · exact String.toList_ofList ..

theorem address_iff (parts : Parts) :
    (∃ authority port, parts.result.host.toList =
        lowerCase parts.scheme ++ separator ++ authority ∧
      portOf authority = some port ∧ port ≠ [] ∧
        (authority = parts.authority ∨ portOf parts.authority = none ∧
          authority = parts.authority ++ ':' :: defaultPort parts.ssl)) ↔
      (':' ∈ parts.authority → ∃ port, portOf parts.authority = some port ∧ port ≠ []) := by
  rw [result_host]
  constructor
  · rintro ⟨authority, port, same, has, some_, -⟩ colon
    rw [List.append_cancel_left_eq, Parts.address, if_pos colon] at same
    exact ⟨port, same ▸ has, some_⟩
  · intro given
    by_cases colon : ':' ∈ parts.authority
    · obtain ⟨port, has, some_⟩ := given colon
      exact ⟨parts.authority, port, by rw [Parts.address, if_pos colon], has, some_, Or.inl rfl⟩
    · refine ⟨_, defaultPort parts.ssl, rfl, ?_, defaultPort_ne_nil _,
        Or.inr ⟨portOf_none colon, ?_⟩⟩
      · rw [Parts.address, if_neg colon]
        exact portOf_append colon (defaultPort_plain _) (defaultPort_open _)
      · rw [Parts.address, if_neg colon]

theorem path_iff (parts : Parts) :
    parts.result.path.toList.head? = some '/' ↔
      parts.rest = [] ∨ parts.rest.head? = some '/' := by
  rw [result_path]
  by_cases empty : parts.rest = []
  · simp [empty]
  · rw [if_neg empty]
    exact ⟨Or.inr, fun either => either.resolve_left empty⟩

theorem result_whole (parts : Parts) :
    ∃ port slash, parts.result.host.toList ++ parts.result.path.toList =
        lowerCase parts.scheme ++ separator ++ parts.authority ++ port ++ parts.rest ++ slash ∧
      (port = [] ∨ port = ':' :: defaultPort parts.ssl) ∧ (slash = [] ∨ slash = ['/']) := by
  refine ⟨if ':' ∈ parts.authority then [] else ':' :: defaultPort parts.ssl,
    if parts.rest = [] then ['/'] else [], ?_, ?_, ?_⟩
  · rw [result_host, result_path, Parts.address]
    by_cases colon : ':' ∈ parts.authority <;> by_cases empty : parts.rest = [] <;>
      simp [colon, empty]
  · split
    · exact Or.inl rfl
    · exact Or.inr rfl
  · split
    · exact Or.inr rfl
    · exact Or.inl rfl

/-! ## Every URL -/

/-- `scheme://host[:port][/path][?query]`. -/
structure Form where
  scheme : List Char
  host : List Char
  port : Option (List Char)
  path : Option (List Char)
  query : Option (List Char)
  isScheme : IsScheme scheme
  nonempty : host ≠ []
  plain : ∀ c ∈ host, delimiter c = false

def optional (mark : Char) : Option (List Char) → List Char
  | some text => mark :: text
  | none => []

def Form.text (form : Form) : List Char :=
  form.scheme ++ separator ++ form.host ++ optional ':' form.port ++ optional '/' form.path ++
    optional '?' form.query

theorem plain_of_all {s : List Char} (all : (s.all fun c => !delimiter c) = true) :
    ∀ c ∈ s, delimiter c = false := by
  intro c member
  simpa using List.all_eq_true.mp all c member

theorem parse_form (form : Form) (url : String) (text : form.text = url.toList) :
    ∃ r, parseWsUrl url = .ok r := by
  have found : schemeAt url.toList = some (form.scheme, form.host ++ (optional ':' form.port ++
      (optional '/' form.path ++ optional '?' form.query))) := by
    rw [← text, Form.text, List.append_assoc, List.append_assoc, List.append_assoc]
    exact schemeAt_append form.isScheme _
  have inside : ∀ c ∈ form.host, (!delimiter c) = true := fun c member => by
    rw [form.plain c member]
    rfl
  rw [parseWsUrl, found]
  simp only [List.takeWhile_append_of_pos inside]
  rw [if_neg fun empty => form.nonempty (List.append_eq_nil_iff.mp empty).1]
  exact ⟨_, rfl⟩

/-- Every URL of the documented form is accepted, and what is accepted is split into an address
with a port and a path exactly when it is regular. -/
theorem ws_url_iff (url : String) :
    (∀ form : Form, form.text = url.toList → ∃ r, parseWsUrl url = .ok r) ∧
      ∀ r, parseWsUrl url = .ok r →
        (∃ parts : Parts, parts.text = url.toList) ∧
          ∀ parts : Parts, parts.text = url.toList → (Split parts r ↔ Regular parts) := by
  refine ⟨fun form text => parse_form form url text, fun r accepted => ⟨?_, fun parts text => ?_⟩⟩
  · obtain ⟨parts, text, -⟩ := (parse_ok_iff url r).mp accepted
    exact ⟨parts, text⟩
  · have same : r = parts.result := by
      have again := (parse_ok_iff url parts.result).mpr ⟨parts, text, rfl⟩
      exact Except.ok.inj (accepted.symm.trans again)
    subst same
    constructor
    · intro split
      exact ⟨(path_iff parts).mp split.path, (address_iff parts).mp split.host⟩
    · rintro ⟨path, port⟩
      exact ⟨(address_iff parts).mpr port, (path_iff parts).mpr path, rfl, result_whole parts⟩

theorem ws_url_iff_chat :
    (∃ r, parseWsUrl "WSS://host:9/chat?x=1" = .ok r) ∧
      ∀ r, parseWsUrl "WSS://host:9/chat?x=1" = .ok r →
        (∃ parts : Parts, parts.text = "WSS://host:9/chat?x=1".toList) ∧
          ∀ parts : Parts, parts.text = "WSS://host:9/chat?x=1".toList →
            (Split parts r ↔ Regular parts) := by
  refine ⟨(ws_url_iff _).1 ?_ ?_, (ws_url_iff _).2⟩
  · exact
      { scheme := "WSS".toList, host := "host".toList, port := some "9".toList
        path := some "chat".toList, query := some "x=1".toList
        isScheme := by decide, nonempty := by decide, plain := plain_of_all rfl }
  · decide

/-- The parts of `ws://host?x=1`. -/
def queried : Parts where
  scheme := "ws".toList
  authority := "host".toList
  rest := "?x=1".toList
  isScheme := by decide
  nonempty := by decide
  inside := plain_of_all rfl
  begins c first := by
    cases first
    rfl

/-- A query without a path is taken for the path, and an empty port for a port. -/
theorem query_becomes_path :
    parseWsUrl "ws://host?x=1" = .ok { host := "ws://host:80", path := "?x=1", ssl := false } ∧
      queried.text = "ws://host?x=1".toList ∧
      ¬ Split queried { host := "ws://host:80", path := "?x=1", ssl := false } ∧
      parseWsUrl "ws://host:" = .ok { host := "ws://host:", path := "/", ssl := false } := by
  refine ⟨by rfl, by rfl, fun split => ?_, by rfl⟩
  exact absurd split.path (by decide)

end DrogonR.WebSocket.Url
