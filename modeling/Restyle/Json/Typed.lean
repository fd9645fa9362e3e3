import Restyle.Json.Number
import Restyle.Text.Account
/-!
Values of expected types in JSON texts: strings, booleans, lists of strings, and values that are
passed over.
-/

namespace Restyle.Json

/-- The place of the value ahead, which has to be there. -/
def valuePlace (p : Place) : Except Failure Place :=
  let p := p.skipBlanks
  if p.rest.isEmpty then p.fail .endInValue else .ok p

/-- The failure of a value that is not of the expected type. -/
def wrongType {α : Type} (expected : String) : Reader α := fun p =>
  let told {β : Type} (found : String) (at_ : Place) : Except Failure β :=
    at_.fail (.wrongType found expected)
  match p.rest with
  | 'n' :: _ => do
    let ((), p) ← readWord "ull".toList p.next
    told "null" p
  | 't' :: _ => do
    let ((), p) ← readWord "rue".toList p.next
    told "boolean \x60true\x60" p
  | 'f' :: _ => do
    let ((), p) ← readWord "alse".toList p.next
    told "boolean \x60false\x60" p
  | '-' :: _ => do
    let (n, p) ← readNumber true p.next
    told n.description p
  | '"' :: _ => do
    let (s, p) ← readQuoted p.next
    told ("string " ++ Text.quoted s) p
  | '[' :: _ => told "sequence" p
  | '\x7b' :: _ => told "map" p
  | c :: _ =>
    if c.isDigit then do
      let (n, p) ← readNumber false p
      told n.description p
    else p.failAhead .expectedValue
  | [] => p.failAhead .expectedValue

def readString : Reader String := fun p => do
  let p ← valuePlace p
  match p.rest with
  | '"' :: _ => readQuoted p.next
  | _ => wrongType "a string" p

def readBool : Reader Bool := fun p => do
  let p ← valuePlace p
  match p.rest with
  | 't' :: _ => do
    let ((), p) ← readWord "rue".toList p.next
    return (true, p)
  | 'f' :: _ => do
    let ((), p) ← readWord "alse".toList p.next
    return (false, p)
  | _ => wrongType "a boolean" p

/-- Whether one more element of a list follows, with its place. -/
def nextElement (isFirst : Bool) : Reader Bool := fun p =>
  let p := p.skipBlanks
  match p.rest with
  | [] => p.failAhead .endInList
  | ']' :: _ => .ok (false, p)
  | c :: _ =>
    if isFirst then .ok (true, p)
    else if c == ',' then
      let p := p.next.skipBlanks
      match p.rest with
      | [] => p.failAhead .endInValue
      | ']' :: _ => p.failAhead .trailingComma
      | _ => .ok (true, p)
    else p.failAhead .expectedListEnd

def endList : Reader Unit := fun p =>
  let p := p.skipBlanks
  match p.rest with
  | [] => p.failAhead .endInList
  | ']' :: _ => .ok ((), p.next)
  | ',' :: _ =>
    let p := p.next.skipBlanks
    p.failAhead (if p.rest.head? == some ']' then .trailingComma else .trailingCharacters)
  | _ => p.failAhead .trailingCharacters

/-- Reads the strings of a list behind its bracket, at most `fuel` many. -/
def readElements : Nat → Bool → Reader (List String)
  | 0, _, p => .ok ([], p)
  | fuel + 1, isFirst, p => do
    let (more, p) ← nextElement isFirst p
    if more then
      let (s, p) ← readString p
      let (ss, p) ← readElements fuel false p
      return (s :: ss, p)
    else return ([], p)

def readStrings : Reader (List String) := fun p => do
  let p ← valuePlace p
  match p.rest with
  | '[' :: _ => do
    let (ss, p) ← readElements (p.rest.length + 1) true p.next
    let ((), p) ← endList p
    return (ss, p)
  | _ => wrongType "a sequence" p

/-- Reads the key and the colon before a value of an object. -/
def passKey : Reader Unit := fun p => do
  let p := p.skipBlanks
  let ((), p) ← match p.rest with
    | '"' :: _ => passQuoted p.next
    | [] => p.failAhead .endInObject
    | _ => p.failAhead .keyNotString
  let p := p.skipBlanks
  match p.rest with
  | ':' :: _ => return ((), p.next)
  | [] => p.failAhead .endInObject
  | _ => p.failAhead .expectedColon

/-- What has to be passed over next: a value, or what follows a value or an opening bracket. -/
inductive Stage where
  | value
  | behind (afterValue : Bool)

/-- Passes over the rest of a value inside the brackets that are open, the innermost first. -/
def passWithin : Nat → Stage → List Char → Reader Unit
  | 0, _, _, p => .ok ((), p)
  | fuel + 1, .value, open_, p => do
    let p ← valuePlace p
    match p.rest with
    | 'n' :: _ => do
      let ((), p) ← readWord "ull".toList p.next
      passWithin fuel (.behind true) open_ p
    | 't' :: _ => do
      let ((), p) ← readWord "rue".toList p.next
      passWithin fuel (.behind true) open_ p
    | 'f' :: _ => do
      let ((), p) ← readWord "alse".toList p.next
      passWithin fuel (.behind true) open_ p
    | '-' :: _ => do
      let ((), p) ← passNumber p.next
      passWithin fuel (.behind true) open_ p
    | '"' :: _ => do
      let ((), p) ← passQuoted p.next
      passWithin fuel (.behind true) open_ p
    | c :: _ =>
      if c.isDigit then do
        let ((), p) ← passNumber p
        passWithin fuel (.behind true) open_ p
      else if c == '[' || c == '\x7b' then passWithin fuel (.behind false) (c :: open_) p.next
      else p.failAhead .expectedValue
    | [] => p.failAhead .expectedValue
  | _ + 1, .behind _, [], p => .ok ((), p)
  | fuel + 1, .behind afterValue, frame :: open_, p => do
    let p := p.skipBlanks
    let isList := frame == '['
    let element (p : Place) : Except Failure (Unit × Place) := do
      let ((), p) ← if isList then pure ((), p) else passKey p
      passWithin fuel .value (frame :: open_) p
    match p.rest with
    | [] => p.failAhead (if isList then .endInList else .endInObject)
    | c :: _ =>
      if c == ',' && afterValue then element p.next
      else if (isList && c == ']') || (!isList && c == '\x7d') then
        passWithin fuel (.behind true) open_ p.next
      else if afterValue then
        p.failAhead (if isList then .expectedListEnd else .expectedObjectEnd)
      else element p

def passValue : Reader Unit := fun p => passWithin (2 * p.rest.length + 2) .value [] p

end Restyle.Json
