import Mathlib.Data.List.Count
import MonascaNotification.Infra.Except
import MonascaNotification.Infra.Segments
import MonascaNotification.Model.ConfTypes
import MonascaNotification.Python.Url

/-!
# Addresses with a port

`HostAddressPortType` writes every address in the same way. What it returns is read back as the same
address and port, and accepted again, exactly when there is no colon in the address: an IPv6
address loses its brackets (`call_returns_iff`).
-/

namespace MonascaNotification.HostAddressPortType

open Infra

/-- What the documentation of `oslo` says about the parser and the types. -/
structure Documented (O : Oslo) : Prop where
  /-- `host:port` -/
  parse_host : ∀ (host : String) (port : Int), host ≠ "" → host.toList.head? ≠ some '[' →
    ':' ∉ host.toList → O.parseHostPort (host ++ ":" ++ toString port) = .ok (some host, some port)
  /-- `[v6]:port` -/
  parse_bracketed : ∀ (host : String) (port : Int), ']' ∉ host.toList →
    O.parseHostPort ("[" ++ host ++ "]:" ++ toString port) = .ok (some host, some port)
  /-- More than one colon: a host without a port. -/
  parse_colons : ∀ text : String, text.toList.head? ≠ some '[' → 1 < text.toList.count ':' →
    O.parseHostPort text = .ok (some text, none)
  ipAddress_returns : ∀ (addr : Option String) (a : String), O.ipAddress addr = .ok a →
    addr = some a ∧ a.toList.head? ≠ some '['
  hostname_returns : ∀ (addr : Option String) (a : String), O.hostname addr = .ok a →
    addr = some a ∧ a.toList.head? ≠ some '['
  port_returns : ∀ (port : Option Int) (p : Int), O.port port = .ok p → port = some p

variable {O : Oslo}

theorem validateAddr_returns (hO : Documented O) {addr : Option String} {a : String}
    (h : validateAddr O addr = .ok a) : addr = some a ∧ a.toList.head? ≠ some '[' := by
  rw [validateAddr] at h
  split at h
  · exact hO.hostname_returns addr a h
  · exact hO.ipAddress_returns addr a h

/-- What is accepted: an address and a port, written with a colon between them. -/
theorem call_eq_ok (hO : Documented O) {value result : String} :
    call O value = .ok result ↔ ∃ (a : String) (p : Int),
      O.parseHostPort value = .ok (some a, some p) ∧ validateAddr O (some a) = .ok a ∧
      O.port (some p) = .ok p ∧ a ≠ "" ∧ p ≠ 0 ∧ result = a ++ ":" ++ toString p := by
  constructor
  · intro h
    rw [call] at h
    obtain ⟨⟨addr, port⟩, hparse, hrest⟩ := bind_eq_ok.mp h
    obtain ⟨a, haddr, hrest⟩ := bind_eq_ok.mp hrest
    obtain ⟨p, hport, hresult⟩ := bind_eq_ok.mp hrest
    obtain ⟨rfl, -⟩ := validateAddr_returns hO haddr
    obtain rfl := hO.port_returns port p hport
    split at hresult
    · next hne =>
      cases hresult
      exact ⟨a, p, hparse, haddr, hport, hne.1, hne.2, rfl⟩
    · cases hresult
  · rintro ⟨a, p, hparse, haddr, hport, hne, hzero, rfl⟩
    rw [call, hparse, ok_bind]
    dsimp only
    rw [haddr, ok_bind, validatePort, hport, ok_bind, if_pos ⟨hne, hzero⟩]
    rfl

theorem head?_append_colon {a : String} (hne : a ≠ "") (hbracket : a.toList.head? ≠ some '[')
    (rest : String) : (a ++ ":" ++ rest).toList.head? ≠ some '[' := by
  have hlist : a.toList ≠ [] := fun hnil => hne (String.toList_inj.mp hnil)
  rw [String.toList_append, String.toList_append, List.append_assoc,
    List.head?_append_of_ne_nil _ hlist]
  exact hbracket

/--
**Host and port.** What is returned is parsed to the same host and port, and accepted as it is,
exactly when there is no colon in the host.
-/
theorem call_returns_iff (hO : Documented O) {value result : String}
    (h : call O value = .ok result) :
    ∃ (host : String) (port : Int), O.parseHostPort value = .ok (some host, some port) ∧
      (O.parseHostPort result = .ok (some host, some port) ∧ call O result = .ok result ↔
        ':' ∉ host.toList) := by
  obtain ⟨a, p, hparse, haddr, hport, hne, hzero, rfl⟩ := (call_eq_ok hO).mp h
  have hbracket := (validateAddr_returns hO haddr).2
  refine ⟨a, p, hparse, ?_, ?_⟩
  · rintro ⟨hagain, -⟩ hcolon
    have hcount : 1 < (a ++ ":" ++ toString p).toList.count ':' := by
      have hpos : 0 < a.toList.count ':' := List.count_pos_iff.mpr hcolon
      have hone : ":".toList.count ':' = 1 := by decide
      rw [String.toList_append, String.toList_append, List.count_append, List.count_append]
      omega
    rw [hO.parse_colons _ (head?_append_colon hne hbracket _) hcount] at hagain
    exact absurd (congrArg Prod.snd (Except.ok.inj hagain)) (by simp)
  · intro hcolon
    have hagain := hO.parse_host a p hne hbracket hcolon
    exact ⟨hagain, (call_eq_ok hO).mpr ⟨a, p, hagain, haddr, hport, hne, hzero, rfl⟩⟩

/-- Every IPv6 address is accepted in brackets, and comes back without them. -/
theorem call_bracketed (hO : Documented O) {a : String} {p : Int} (hclosed : ']' ∉ a.toList)
    (haddr : O.ipAddress (some a) = .ok a) (hport : O.port (some p) = .ok p) (hne : a ≠ "")
    (hzero : p ≠ 0) : call O ("[" ++ a ++ "]:" ++ toString p) = .ok (a ++ ":" ++ toString p) := by
  have hvalid : validateAddr O (some a) = .ok a := by
    rw [validateAddr, haddr]
  exact (call_eq_ok hO).mpr
    ⟨a, p, hO.parse_bracketed a p hclosed, hvalid, hport, hne, hzero, rfl⟩

/-! ## `oslo` -/

def isIpv4 (s : List Char) : Bool :=
  let parts := s.splitOn '.'
  parts.length == 4 && parts.all fun part =>
    part ≠ [] && part.all Char.isDigit && Nat.ofDigitChars 10 part 0 ≤ 255

def areGroups (groups : List (List Char)) : Bool :=
  groups.all fun group => group ≠ [] && group.length ≤ 4

/-- Eight groups, or less of them around `::`. -/
def isIpv6 (s : List Char) : Bool :=
  let groups := fun s : List Char => if s = [] then [] else s.splitOn ':'
  s.all (fun c => c == ':' || (hexValue c).isSome) &&
    ((groups s).length == 8 && areGroups (groups s) ||
      (List.range s.length).any fun i =>
        (s.drop i).take 2 == [':', ':'] && areGroups (groups (s.take i)) &&
          areGroups (groups (s.drop (i + 2))) &&
          (groups (s.take i)).length + (groups (s.drop (i + 2))).length ≤ 7)

def isLabel (s : List Char) : Bool :=
  s ≠ [] && s.length ≤ 63 && s.all (fun c => c.isAlphanum || c == '-') &&
    s.head? ≠ some '-' && s.getLast? ≠ some '-'

def parseHostPort (address : String) : Except PyExn (Option String × Option Int) :=
  if address = "" then .ok (none, none)
  else if address.toList.head? = some '[' then
    match (address.toList.drop 1).splitOn ']' with
    | [host, rest] =>
      match rest.splitOn ':' with
      | _ :: port :: _ => (intOfText (String.ofList port)).map fun p =>
        (some (String.ofList host), some p)
      | _ => .ok (some (String.ofList host), none)
    | _ => .error .valueError
  else
    match address.toList.splitOn ':' with
    | [host, port] => (intOfText (String.ofList port)).map fun p =>
      (some (String.ofList host), some p)
    | _ => .ok (some address, none)

/--
For ports that are plain numerals, host names without a dot at the end, and IP addresses that do not
mix the two versions.
-/
def oslo : Oslo where
  parseHostPort := parseHostPort
  ipAddress := fun addr =>
    match addr with
    | some a => if isIpv4 a.toList ∨ isIpv6 a.toList then .ok a else .error .valueError
    | none => .error .valueError
  hostname := fun addr =>
    match addr with
    | some a =>
      let labels := a.toList.splitOn '.'
      if a.length ≤ 253 ∧ labels.all isLabel ∧ (labels.getLastD []).all Char.isDigit = false then
        .ok a
      else .error .valueError
    | none => .error .typeError
  port := fun port =>
    match port with
    | some p => if 0 ≤ p ∧ p ≤ 65535 then .ok p else .error .valueError
    | none => .error .typeError

theorem head?_ne_bracket {s : List Char} (h : ∀ part ∈ s.splitOn '.', '[' ∉ part) :
    s.head? ≠ some '[' := by
  intro hhead
  obtain ⟨part, hpart, hmem⟩ := exists_mem_splitOn '.' (List.mem_of_head? hhead) (by decide)
  exact h part hpart hmem

theorem parseHostPort_host {host : String} {port : Int} (hne : host ≠ "")
    (hbracket : host.toList.head? ≠ some '[') (hcolon : ':' ∉ host.toList) :
    parseHostPort (host ++ ":" ++ toString port) = .ok (some host, some port) := by
  have hport : ':' ∉ (toString port).toList := not_mem_toString port (by decide) rfl
  have hsplit : (host ++ ":" ++ toString port).toList.splitOn ':' =
      [host.toList, (toString port).toList] := by
    rw [String.toList_append, String.toList_append, List.append_assoc]
    show (host.toList ++ ':' :: (toString port).toList).splitOn ':' = _
    rw [List.splitOn_append_cons_self_of_not_mem hcolon, List.splitOn_eq_singleton hport]
  have hempty : host ++ ":" ++ toString port ≠ "" := by
    intro h
    have hlength := congrArg String.length h
    simp at hlength
  rw [parseHostPort, if_neg hempty, if_neg (head?_append_colon hne hbracket _), hsplit]
  dsimp only
  rw [String.ofList_toList, String.ofList_toList, intOfText_toString]
  rfl

theorem parseHostPort_bracketed {host : String} {port : Int} (hclosed : ']' ∉ host.toList) :
    parseHostPort ("[" ++ host ++ "]:" ++ toString port) = .ok (some host, some port) := by
  have hlist : ("[" ++ host ++ "]:" ++ toString port).toList =
      '[' :: (host.toList ++ ']' :: ':' :: (toString port).toList) := by
    simp
  -- a port is written with digits and a minus, so that the first bracket closes the host
  have hrest : ']' ∉ ':' :: (toString port).toList := by
    rw [List.mem_cons, not_or]
    exact ⟨by decide, not_mem_toString port (by decide) rfl⟩
  have hport : ':' ∉ (toString port).toList := not_mem_toString port (by decide) rfl
  have hsplit : (':' :: (toString port).toList).splitOn ':' = [[], (toString port).toList] := by
    rw [List.splitOn_cons_eq_if_modifyHead, if_pos (beq_self_eq_true ':'),
      List.splitOn_eq_singleton hport]
  have hempty : "[" ++ host ++ "]:" ++ toString port ≠ "" := by
    intro h
    rw [h] at hlist
    cases hlist
  rw [parseHostPort, if_neg hempty, hlist, if_pos List.head?_cons, List.drop_succ_cons,
    List.drop_zero, List.splitOn_append_cons_self_of_not_mem hclosed,
    List.splitOn_eq_singleton hrest]
  dsimp only
  rw [hsplit]
  dsimp only
  rw [String.ofList_toList, String.ofList_toList, intOfText_toString]
  rfl

theorem parseHostPort_colons {text : String} (hbracket : text.toList.head? ≠ some '[')
    (hcount : 1 < text.toList.count ':') : parseHostPort text = .ok (some text, none) := by
  have hempty : text ≠ "" := by
    rintro rfl
    exact absurd hcount (by decide)
  rw [parseHostPort, if_neg hempty, if_neg hbracket]
  split
  · next host port hsplit =>
    -- two parts: no colon in either, and one between them
    have htext : [':'].intercalate [host, port] = text.toList := by
      rw [← hsplit]
      exact List.intercalate_splitOn ':'
    have hhost : ':' ∉ host := not_mem_of_mem_splitOn (hsplit ▸ List.mem_cons_self)
    have hport : ':' ∉ port :=
      not_mem_of_mem_splitOn (hsplit ▸ List.mem_cons_of_mem _ List.mem_cons_self)
    rw [← htext, intercalate_cons, List.count_append] at hcount
    simp [List.count_eq_zero.mpr hhost, List.count_eq_zero.mpr hport] at hcount
  · rfl

theorem head?_ne_of_isIpv4 {s : List Char} (h : isIpv4 s = true) : s.head? ≠ some '[' := by
  refine head?_ne_bracket fun part hpart hmem => ?_
  simp only [isIpv4, Bool.and_eq_true, List.all_eq_true] at h
  exact absurd ((h.2 part hpart).1.2 '[' hmem) (by decide)

theorem head?_ne_of_isIpv6 {s : List Char} (h : isIpv6 s = true) : s.head? ≠ some '[' := by
  intro hhead
  rw [isIpv6, Bool.and_eq_true, List.all_eq_true] at h
  exact absurd (h.1 '[' (List.mem_of_head? hhead)) (by decide)

theorem head?_ne_of_isLabel {s : List Char} (h : (s.splitOn '.').all isLabel = true) :
    s.head? ≠ some '[' := by
  refine head?_ne_bracket fun part hpart hmem => ?_
  have hlabel := List.all_eq_true.mp h part hpart
  simp only [isLabel, Bool.and_eq_true, List.all_eq_true] at hlabel
  exact absurd (hlabel.1.1.2 '[' hmem) (by decide)

theorem documented_oslo : Documented oslo where
  parse_host host port hne hbracket hcolon := parseHostPort_host hne hbracket hcolon
  parse_bracketed host port hclosed := parseHostPort_bracketed hclosed
  parse_colons text hbracket hcount := parseHostPort_colons hbracket hcount
  ipAddress_returns := by
    intro addr a h
    cases addr with
    | none => cases h
    | some given =>
      change (if isIpv4 given.toList ∨ isIpv6 given.toList then _ else _) = _ at h
      split at h
      · next hvalid =>
        cases h
        exact ⟨rfl, hvalid.elim head?_ne_of_isIpv4 head?_ne_of_isIpv6⟩
      · cases h
  hostname_returns := by
    intro addr a h
    cases addr with
    | none => cases h
    | some given =>
      change (if given.length ≤ 253 ∧ (given.toList.splitOn '.').all isLabel ∧ _ then _ else _) =
        _ at h
      split at h
      · next hvalid =>
        cases h
        exact ⟨rfl, head?_ne_of_isLabel hvalid.2.1⟩
      · cases h
  port_returns := by
    intro port p h
    cases port with
    | none => cases h
    | some given =>
      change (if 0 ≤ given ∧ given ≤ 65535 then _ else _) = _ at h
      split at h
      · cases h
        rfl
      · cases h

theorem call_returns_host :
    oslo.parseHostPort "kafka:09092" = .ok (some "kafka", some 9092) ∧
      oslo.parseHostPort "kafka:9092" = .ok (some "kafka", some 9092) ∧
      call oslo "kafka:9092" = .ok "kafka:9092" := by
  have hparse : oslo.parseHostPort "kafka:09092" = .ok (some "kafka", some 9092) := by
    decide +kernel
  have hcall : call oslo "kafka:09092" = .ok "kafka:9092" := by decide +kernel
  obtain ⟨host, port, hgiven, hkept⟩ := call_returns_iff documented_oslo hcall
  rw [hparse] at hgiven
  cases hgiven
  exact ⟨hparse, hkept.mpr (by decide)⟩

/-- An IPv6 address is returned without its brackets: there is no port in it any more. -/
theorem call_loses_brackets :
    call oslo "[::1]:9092" = .ok "::1:9092" ∧
      oslo.parseHostPort "[::1]:9092" = .ok (some "::1", some 9092) ∧
      oslo.parseHostPort "::1:9092" = .ok (some "::1:9092", none) ∧
      ∀ result, call oslo "::1:9092" ≠ .ok result := by
  refine ⟨by decide +kernel, by decide +kernel, by decide +kernel, fun result h => ?_⟩
  have herror : call oslo "::1:9092" = .error .typeError := by decide +kernel
  rw [herror] at h
  cases h

end MonascaNotification.HostAddressPortType
