import Restyle.Script.Lexeme
/-!
The grammar of scripts with markup, in its three dialects: plain scripts with markup, typed scripts
without markup, and typed scripts with markup.
-/

namespace Restyle.Script

open Syntax (Pattern Grammar Node Role)
open Syntax.Pattern

/-- A dialect of scripts: whether it has types, and whether it has markup. -/
structure Dialect where
  typed : Bool
  markup : Bool
deriving DecidableEq, Repr

/-- The rules of scripts. -/
inductive Rule where
  | program | statement | block | declaration | function | classBody
  | expression | expressions | operand | primary | object | array | arguments | template
  | signature | pattern | propertyName | ascription
  | type | primaryType | typeParameters | typeArguments | members
  | element | markupExpression
deriving DecidableEq, Repr

private abbrev P := Pattern Rule

private def op (p : String) (longer : List String := []) : P := token (punctuation p longer)

private def kw (k : String) : P := token (keyword k)

private def oneKw (ks : List String) : P := choice (ks.map kw)

private def name : P := token identifier
private def anyName (category : String) : P := token (anyWord category)
private def comma : P := op ","
private def assign : P := op "=" ["==", "=>"]
private def parens (p : P) : P := bracketed true (seq [op "(", p, op ")"])
private def braces (p : P) : P := bracketed true (seq [op "\x7b", p, op "\x7d"])
private def brackets (p : P) : P := bracketed true (seq [op "[", p, op "]"])
private def body (p : P) : P := bracketed false (seq [op "\x7b", p, op "\x7d"])

private def holedList (p : P) : P := seq [optional p, many (seq [comma, optional p])]

private def closedList (p : P) : P := seq [separated comma p, optional comma]

private def given (b : Bool) (p : P) : P := if b then p else absent nothing

private def notBefore (chars : String) : P :=
  ahead fun cs => !(cs.head?.any fun c => chars.toList.contains c)

/-- The operators between two operands. -/
private def infixOperator : P :=
  choice [op "&&" ["&&="], op "||" ["||="], op "??" ["??="], op "===" , op "!==", op "==" ["==="],
    op "!=" ["!=="], op ">>>" [">>>="], op "<<" ["<<="], op ">>" [">>=", ">>>"], op "<=",
    op ">=", op "<" ["<<", "<="], op ">" [">>", ">="], op "**" ["**="], op "+" ["++", "+="],
    op "-" ["--", "-="], op "*" ["**", "*="], op "/" ["/="], op "%" ["%="],
    op "&" ["&&", "&="], op "|" ["||", "|="], op "^" ["^="], kw "instanceof", kw "in"]

private def assignOperator : P :=
  choice [assign, op "+=", op "-=", op "*=" , op "/=", op "%=", op "**=", op "<<=", op ">>=",
    op ">>>=", op "&=", op "|=", op "^=", op "&&=", op "||=", op "??="]

/-- The mark of an access that may find nothing. Before a digit it is none. -/
private def optionalAccess : P := seq [op "?.", notBefore "0123456789"]

/-- The mark between a condition and its outcomes. -/
private def questionMark : P :=
  choice [op "?" ["?.", "??"],
    seq [ahead fun
      | '?' :: '.' :: c :: _ => c.isDigit
      | _ => false, op "?"]]

/-- Text between two marks that touch it. -/
private def between (category mark : String) (text : Syntax.Lexeme) : P :=
  node category (seq [op mark, optional (attached text), attached (punctuation mark [])])

private def string : P :=
  choice [between "string" "\"" (stringText '"'), between "string" "'" (stringText '\'')]

def attributeString : P :=
  choice [between "string" "\"" (attributeText '"'), between "string" "'" (attributeText '\'')]

private def regex : P :=
  node "regex" (seq [op "/", attached regexText, attached (punctuation "/" []),
    optional (attached regexFlags)])

/-! ### Patterns and functions -/

private def patternRule : P :=
  choice [
    name,
    node "object_pattern" (braces (holedList (choice [
      node "rest_pattern" (seq [op "...", rule .pattern]),
      node "pair_pattern" (seq [rule .propertyName, op ":", rule .pattern,
        optional (seq [assign, rule .expression])]),
      node "object_assignment_pattern" (seq [name, assign, rule .expression]),
      name]))),
    node "array_pattern" (brackets (holedList (seq [
      choice [node "rest_pattern" (seq [op "...", rule .pattern]), rule .pattern],
      optional (seq [assign, rule .expression])])))]

private def decorator : P := node "decorator" (seq [op "@", rule .operand])

private def signatureRule (d : Dialect) : P :=
  let parameter := seq [
    many decorator,
    if d.typed then many (seq [oneKw ["public", "private", "protected", "override", "readonly"],
      notBefore ",):=?"]) else nothing,
    choice [node "rest_pattern" (seq [op "...", rule .pattern]), given d.typed (kw "this"),
      rule .pattern],
    if d.typed then seq [optional (op "?"), optional (rule .ascription)] else nothing,
    optional (seq [assign, rule .expression])]
  seq [
    if d.typed then optional (rule .typeParameters) else nothing,
    node "formal_parameters" (parens (closedList parameter)),
    if d.typed then optional (rule .ascription) else nothing]

private def functionRule (d : Dialect) : P :=
  seq [optional (kw "async"), kw "function", optional (op "*"), optional name, rule .signature,
    if d.typed then choice [rule .block, semicolon] else rule .block]

private def propertyNameRule : P :=
  choice [anyName "property_identifier", token privateName, string, token number,
    node "computed_property_name" (brackets (rule .expression))]

/-- Words before a method or field, each followed by the name of the member. -/
private def modifiers (d : Dialect) : P :=
  let words := ["static", "async", "get", "set"] ++
    (if d.typed then ["public", "private", "protected", "readonly", "abstract", "override",
      "declare", "accessor"] else [])
  many (seq [oneKw words, notBefore "(,:=;\x7d?!<"])

private def method (d : Dialect) : P :=
  node "method_definition" (seq [modifiers d, optional (op "*"), rule .propertyName,
    if d.typed then optional (op "?") else nothing, rule .signature,
    if d.typed then choice [rule .block, semicolon] else rule .block])

private def classBodyRule (d : Dialect) : P :=
  node "class_body" (body (many (choice [
    decorator, op ";",
    node "class_static_block" (seq [kw "static", rule .block]),
    method d,
    given d.typed (node "index_signature" (seq [modifiers d, brackets (seq [
      name, op ":", rule .type]), rule .ascription, semicolon])),
    node "field_definition" (seq [modifiers d, rule .propertyName,
      if d.typed then seq [optional (choice [op "?", op "!" ["!="]]), optional (rule .ascription)]
      else nothing,
      optional (seq [assign, rule .expression]), semicolon])])))

private def className (d : Dialect) : P :=
  seq [
    optional (seq [absent (oneKw ["extends", "implements"]), name]),
    if d.typed then optional (rule .typeParameters) else nothing,
    optional (node "class_heritage" (seq [
      optional (seq [kw "extends", rule .operand,
        if d.typed then optional (rule .typeArguments) else nothing]),
      if d.typed then optional (seq [kw "implements", separated1 comma (rule .type)])
      else nothing])),
    rule .classBody]

private def classDefinition (d : Dialect) : P :=
  seq [many decorator, if d.typed then optional (kw "abstract") else nothing, kw "class",
    className d]

/-! ### Expressions -/

/-- A template whose substitutions hold `inner`. -/
private def templateOf (category substitution : String) (inner : P) : P :=
  node category (seq [op "`",
    many (choice [attached templateText,
      node substitution (bracketed true (seq [attached (punctuation "$\x7b" []), inner,
        op "\x7d"]))]),
    attached (punctuation "`" [])])

private def templateRule : P :=
  templateOf "template_string" "template_substitution" (rule .expressions)

private def spread : P := node "spread_element" (seq [op "...", rule .expression])

private def objectRule (d : Dialect) : P :=
  node "object" (braces (holedList (choice [
    spread,
    method d,
    node "pair" (seq [rule .propertyName, op ":", rule .expression]),
    node "object_assignment_pattern" (seq [name, assign, rule .expression]),
    name])))

private def arrayRule : P :=
  node "array" (brackets (holedList (choice [spread, rule .expression])))

private def argumentsRule : P :=
  node "arguments" (parens (holedList (choice [spread, rule .expression])))

private def primaryRule (d : Dialect) : P :=
  choice [
    string, token number, rule .template, regex,
    node "function_expression" (rule .function),
    node "class" (classDefinition d),
    kw "this", kw "super", kw "null", kw "true", kw "false",
    node "new_expression" (seq [kw "new",
      choice [node "meta_property" (seq [op ".", kw "target"]),
        seq [chain (rule .primary) [
            ("member_expression", seq [op "." ["..."], choice [token privateName,
              anyName "property_identifier"]]),
            ("subscript_expression", brackets (rule .expressions))],
          if d.typed then optional (rule .typeArguments) else nothing,
          optional (rule .arguments)]]]),
    seq [kw "import", ahead fun cs => cs.head? == some '(' || cs.head? == some '.'],
    name,
    node "parenthesized_expression" (parens (seq [rule .expressions,
      if d.typed then optional (rule .ascription) else nothing])),
    rule .object, rule .array,
    given d.markup (rule .element)]

/-- What makes an operand larger: an access, a call, or the claim that it is there. -/
private def accesses (d : Dialect) : List (String × P) :=
  [("member_expression", seq [choice [optionalAccess, op "." ["..."]],
      choice [token privateName, anyName "property_identifier"]]),
    ("subscript_expression", seq [optional optionalAccess, brackets (rule .expressions)]),
    ("call_expression", seq [optional optionalAccess, choice [rule .arguments, rule .template]])] ++
    (if d.typed then [
      ("call_expression", seq [optional optionalAccess, rule .typeArguments, rule .arguments]),
      ("non_null_expression", seq [sameStatement, op "!" ["!="]])] else [])

private def operandRule (d : Dialect) : P :=
  choice [
    node "unary_expression" (seq [choice [op "!" , op "~", op "+" ["++"], op "-" ["--"],
      kw "typeof", kw "void", kw "delete"], rule .operand]),
    node "update_expression" (seq [choice [op "++", op "--"], rule .operand]),
    node "await_expression" (seq [kw "await", rule .operand]),
    given (d.typed && !d.markup) (node "type_assertion" (seq [rule .typeArguments,
      rule .operand])),
    chain (chain (rule .primary) (accesses d))
      [("update_expression", seq [sameStatement, choice [op "++", op "--"]])]]

/-- What makes an operand larger: an operator with a second operand, or a type. -/
private def operations (d : Dialect) : List (String × P) :=
  (if d.typed then [
    ("as_expression", seq [sameStatement, kw "as", choice [kw "const", rule .type]]),
    ("satisfies_expression", seq [sameStatement, kw "satisfies", rule .type])] else []) ++
  [("binary_expression", seq [infixOperator, rule .operand])]

private def outcomes : String × P :=
  ("ternary_expression", seq [questionMark, bracketed true (seq [rule .expression, op ":"]),
    rule .expression])

/-- Whether a function, made larger or not, has a body that nothing behind it belongs to. -/
private def isClosed (n : Node) : Bool :=
  !n.is "arrow_function" || n.children.getLast?.any fun c => c.is "statement_block"

private def arrowFunction (d : Dialect) : P :=
  let tail := seq [op "=>", choice [rule .block, rule .expression]]
  chain (node "arrow_function" (choice [
      seq [kw "async", sameStatement, choice [name, rule .signature], tail],
      seq [choice [name, rule .signature], tail]]))
    ((accesses d ++ operations d ++ [outcomes]).map fun (category, p) =>
      (category, seq [last isClosed, p]))

private def expressionRule (d : Dialect) : P :=
  let member := seq [token privateName, ahead fun cs => "in".toList.isPrefixOf cs]
  let binary := chain (choice [member, rule .operand]) (operations d)
  choice [
    arrowFunction d,
    node "yield_expression" (seq [kw "yield", choice [
      seq [op "*", rule .expression], seq [sameStatement, rule .expression], nothing]]),
    chain (chain binary [outcomes])
      [("assignment_expression", seq [assignOperator, rule .expression])]]

private def expressionsRule : P :=
  chain (rule .expression) [("sequence_expression", seq [comma, rule .expression])]

/-! ### Markup -/

def tagName : P :=
  let word := token (markupName "identifier")
  role .name (choice [
    node "jsx_namespace_name" (seq [word, op ":", word]),
    chain word [("member_expression", seq [op ".", anyName "property_identifier"])]])

def attributeName : P :=
  let word := token (markupName "identifier")
  choice [
    node "jsx_namespace_name" (seq [word, op ":", word]),
    token (markupName "property_identifier")]

def tagAttribute : P :=
  role .attribute (choice [
    node "jsx_attribute" (seq [attributeName, optional (seq [op "=", choice [
      attributeString, rule .markupExpression, rule .element]])]),
    rule .markupExpression])

def isOpening (n : Node) : Bool := n.is "jsx_opening_element"

def elementRule (d : Dialect) : P :=
  let tagged := seq [tagName, if d.typed then optional (rule .typeArguments) else nothing,
    many tagAttribute]
  let tag := ending (bracketed true (seq [op "<" ["<<", "<=", "</"], optional tagged]))
    [("jsx_self_closing_element", op "/>"), ("jsx_opening_element", op ">")]
  let child := choice [attached markupText, token characterReference, rule .element,
    rule .markupExpression]
  let closing := role .closeTag (node "jsx_closing_element" (seq [op "</", optional tagName,
    op ">"]))
  seq [chain tag [("jsx_element", seq [last isOpening, many child, closing])],
    last fun n => !isOpening n]

def markupExpressionRule : P :=
  node "jsx_expression" (braces (optional (choice [spread, rule .expressions])))

/-! ### Types -/

private def membersRule (d : Dialect) : P :=
  let end_ := choice [comma, semicolon]
  let index := seq [
    optional (seq [optional (choice [op "+", op "-"]), kw "readonly"]),
    brackets (choice [seq [name, op ":", rule .type],
      seq [anyName "type_identifier", kw "in", rule .type,
        optional (seq [kw "as", rule .type])]]),
    optional (choice [op "-?", op "+?", op "?"]), optional (rule .ascription)]
  node "object_type" (body (seq [optional (choice [comma, op ";"]), many (choice [
    node "index_signature" (seq [index, end_]),
    node "construct_signature" (seq [kw "new", rule .signature, end_]),
    node "call_signature" (seq [rule .signature, end_]),
    node "method_signature" (seq [modifiers d, rule .propertyName, optional (op "?"),
      rule .signature, end_]),
    node "property_signature" (seq [modifiers d, rule .propertyName, optional (op "?"),
      optional (rule .ascription), end_])])]))

private def primaryTypeRule : P :=
  let dotted := chain (anyName "type_identifier")
    [("nested_type_identifier", seq [op "." ["..."], anyName "type_identifier"])]
  choice [
    node "parenthesized_type" (parens (rule .type)),
    rule .members,
    node "tuple_type" (brackets (closedList (seq [optional (op "..."),
      optional (seq [name, optional (op "?"), op ":"]), rule .type, optional (op "?")]))),
    node "literal_type" (choice [string, token number,
      seq [op "-", token number],
      templateOf "template_literal_type" "template_type" (rule .type)]),
    node "type_query" (seq [kw "typeof",
      chain (choice [node "call_expression" (seq [kw "import", rule .arguments]),
        anyName "identifier"])
      [("member_expression", seq [op ".", anyName "property_identifier"])],
      optional (rule .typeArguments)]),
    node "type_import" (seq [kw "import", rule .arguments,
      many (seq [op ".", anyName "type_identifier"]), optional (rule .typeArguments)]),
    seq [dotted, optional (rule .typeArguments)]]

private def typeRule : P :=
  let suffixed := chain (rule .primaryType) [
    ("array_type", seq [sameStatement, op "[", op "]"]),
    ("lookup_type", seq [sameStatement, brackets (rule .type)])]
  let prefixed := seq [many (seq [oneKw ["keyof", "readonly", "unique", "infer"],
    notBefore ",)=;|&>\x7d:?].<"]), suffixed]
  let meet := seq [optional (op "&"), chain prefixed [("intersection_type", seq [op "&" ["&&"],
    prefixed])]]
  let join := seq [optional (op "|"), chain meet [("union_type", seq [op "|" ["||"], meet])]]
  let predicate := chain join [("type_predicate", seq [kw "is", rule .type])]
  choice [
    node "constructor_type" (seq [optional (kw "abstract"), kw "new",
      optional (rule .typeParameters), node "formal_parameters" (parens (closedList (choice [
        seq [op "...", rule .pattern, optional (rule .ascription)],
        seq [rule .pattern, optional (op "?"), optional (rule .ascription)]]))), op "=>",
      rule .type]),
    node "function_type" (seq [optional (rule .typeParameters),
      node "formal_parameters" (parens (closedList (choice [
        seq [op "...", rule .pattern, optional (rule .ascription)],
        seq [choice [kw "this", rule .pattern], optional (op "?"),
          optional (rule .ascription)]]))), op "=>", rule .type]),
    node "asserts" (seq [kw "asserts", notBefore ",)=;|&>\x7d:?[.<\x7b", choice [name, kw "this"],
      optional (seq [kw "is", rule .type])]),
    chain predicate [("conditional_type", seq [sameStatement, kw "extends", join,
      questionMark, rule .type, op ":", rule .type])]]

private def ascriptionRule : P :=
  node "type_ascription" (seq [op ":", rule .type])

private def typeParametersRule : P :=
  node "type_parameters" (bracketed true (seq [op "<", closedList (seq [
    optional (seq [oneKw ["const", "in", "out"], notBefore ",>=:"]),
    anyName "type_identifier", optional (seq [kw "extends", rule .type]),
    optional (seq [assign, rule .type])]), op ">"]))

private def typeArgumentsRule : P :=
  node "type_arguments" (bracketed true (seq [op "<", separated1 comma (rule .type),
    optional comma, op ">"]))

/-! ### Statements -/

private def declarator (d : Dialect) : P :=
  node "variable_declarator" (seq [rule .pattern,
    if d.typed then seq [optional (op "!" ["!="]), optional (rule .ascription)] else nothing,
    optional (seq [assign, rule .expression])])

private def variableDeclaration (d : Dialect) : P :=
  choice [
    node "lexical_declaration" (seq [oneKw ["let", "const"], separated1 comma (declarator d),
      semicolon]),
    node "variable_declaration" (seq [kw "var", separated1 comma (declarator d), semicolon])]

private def fromClause : P := seq [kw "from", string]

private def importAttributes : P :=
  optional (node "import_attribute" (seq [kw "with", sameStatement, rule .object]))

private def specifier (d : Dialect) (category : String) : P :=
  let exported := choice [anyName "identifier", string]
  node category (choice [
    given d.typed (seq [kw "type", notBefore ",\x7d", absent (kw "as"), exported,
      optional (seq [kw "as", exported])]),
    seq [exported, optional (seq [kw "as", exported])]])

private def importStatement (d : Dialect) : P :=
  let named := node "named_imports" (braces (closedList (specifier d "import_specifier")))
  let all := node "namespace_import" (seq [op "*", kw "as", name])
  let clause := node "import_clause" (choice [all, named,
    seq [name, optional (seq [comma, choice [all, named]])]])
  node "import_statement" (seq [kw "import", notBefore "(.",
    choice ([
      seq [string, importAttributes, semicolon],
      seq [clause, fromClause, importAttributes, semicolon]] ++
      (if d.typed then [
        seq [oneKw ["type", "typeof"], clause, fromClause, importAttributes, semicolon],
        seq [optional (kw "type"), name, assign, kw "require",
          parens (string), semicolon],
        seq [optional (kw "type"), name, assign, chain (anyName "identifier")
          [("nested_identifier", seq [op ".", anyName "property_identifier"])], semicolon]]
      else []))])

private def exportStatement (d : Dialect) : P :=
  let clause := node "export_clause" (braces (closedList (specifier d "export_specifier")))
  let everything := seq [op "*", optional (node "namespace_export" (seq [kw "as",
    choice [anyName "identifier", string]]))]
  node "export_statement" (seq [many decorator, kw "export", choice ([
    seq [everything, fromClause, importAttributes, semicolon],
    seq [clause, sameStatement, fromClause, importAttributes, semicolon],
    seq [clause, semicolon],
    seq [kw "default", choice [rule .declaration, seq [rule .expression, semicolon]]],
    rule .declaration] ++ (if d.typed then [
      seq [kw "type", choice [clause, everything], optional fromClause, semicolon],
      seq [assign, rule .expression, semicolon],
      seq [kw "as", kw "namespace", name, semicolon],
      importStatement d] else []))])

private def typedDeclarations (d : Dialect) : List P :=
  let dotted := chain (anyName "identifier")
    [("nested_identifier", seq [op ".", anyName "property_identifier"])]
  [ node "interface_declaration" (seq [kw "interface", anyName "type_identifier",
      optional (rule .typeParameters),
      optional (seq [kw "extends", separated1 comma (rule .type)]), rule .members]),
    node "type_alias_declaration" (seq [kw "type", sameStatement, anyName "type_identifier",
      optional (rule .typeParameters), assign, rule .type, semicolon]),
    node "enum_declaration" (seq [optional (kw "const"), kw "enum", name, node "enum_body"
      (braces (closedList (choice [node "enum_assignment" (seq [rule .propertyName, assign,
        rule .expression]), rule .propertyName])))]),
    node "ambient_declaration" (seq [kw "declare", sameStatement, choice [
      seq [kw "global", rule .block], rule .declaration]]),
    node "module" (seq [kw "module", sameStatement, choice [dotted, string],
      choice [rule .block, semicolon]]),
    node "internal_module" (seq [kw "namespace", sameStatement, dotted,
      choice [rule .block, semicolon]])] ++
  [variableDeclaration d]

private def declarationRule (d : Dialect) : P :=
  choice ([
    node "function_declaration" (seq [optional (kw "async"), kw "function", optional (op "*"), name,
      rule .signature, if d.typed then choice [rule .block, semicolon] else rule .block]),
    node "class_declaration" (seq [many decorator,
      if d.typed then optional (kw "abstract") else nothing, kw "class", absent (kw "extends"),
      ahead fun cs => cs.head? != some '\x7b', className d])] ++
    (if d.typed then typedDeclarations d else [variableDeclaration d]))

private def blockRule : P :=
  node "statement_block" (body (many (rule .statement)))

private def expressionStatement : P :=
  node "expression_statement" (seq [rule .expressions, semicolon])

private def statementRule (d : Dialect) : P :=
  let condition := node "parenthesized_expression" (parens (rule .expressions))
  let each := seq [optional (oneKw ["var", "let", "const"]),
    choice [seq [rule .pattern, oneKw ["in", "of"]], seq [rule .operand, oneKw ["in", "of"]]],
    rule .expressions]
  let counted := seq [
    choice [
      seq [oneKw ["var", "let", "const"], separated1 comma (declarator d), op ";"],
      seq [rule .expressions, op ";"], op ";"],
    optional (rule .expressions), op ";", optional (rule .expressions)]
  choice [
    exportStatement d, importStatement d, rule .declaration, rule .block,
    node "if_statement" (seq [kw "if", condition, rule .statement,
      optional (node "else_clause" (seq [kw "else", rule .statement]))]),
    node "switch_statement" (seq [kw "switch", condition, node "switch_body" (body (many (choice [
      node "switch_case" (seq [kw "case", rule .expressions, op ":", many (rule .statement)]),
      node "switch_default" (seq [kw "default", op ":", many (rule .statement)])])))]),
    node "for_in_statement" (seq [kw "for", optional (kw "await"), parens each,
      rule .statement]),
    node "for_statement" (seq [kw "for", parens counted, rule .statement]),
    node "while_statement" (seq [kw "while", condition, rule .statement]),
    node "do_statement" (seq [kw "do", rule .statement, kw "while", condition,
      optional semicolon]),
    node "try_statement" (seq [kw "try", rule .block,
      optional (node "catch_clause" (seq [kw "catch",
        optional (parens (seq [rule .pattern,
          if d.typed then optional (rule .ascription) else nothing])), rule .block])),
      optional (node "finally_clause" (seq [kw "finally", rule .block]))]),
    node "with_statement" (seq [kw "with", condition, rule .statement]),
    node "break_statement" (seq [kw "break", optional (seq [sameStatement, name]), semicolon]),
    node "continue_statement" (seq [kw "continue", optional (seq [sameStatement, name]),
      semicolon]),
    node "debugger_statement" (seq [kw "debugger", semicolon]),
    node "return_statement" (seq [kw "return", optional (seq [sameStatement, rule .expressions]),
      semicolon]),
    node "throw_statement" (seq [kw "throw", rule .expressions, semicolon]),
    node "empty_statement" (op ";"),
    node "labeled_statement" (seq [name, op ":", rule .statement]),
    expressionStatement]

def rules (d : Dialect) : Rule → Pattern Rule
  | .program => seq [optional (token hashBang), many (rule .statement)]
  | .statement => statementRule d
  | .block => blockRule
  | .declaration => declarationRule d
  | .function => functionRule d
  | .classBody => classBodyRule d
  | .expression => expressionRule d
  | .expressions => expressionsRule
  | .operand => operandRule d
  | .primary => primaryRule d
  | .object => objectRule d
  | .array => arrayRule
  | .arguments => argumentsRule
  | .template => templateRule
  | .signature => signatureRule d
  | .pattern => patternRule
  | .propertyName => propertyNameRule
  | .ascription => ascriptionRule
  | .type => typeRule
  | .primaryType => primaryTypeRule
  | .typeParameters => typeParametersRule
  | .typeArguments => typeArgumentsRule
  | .members => membersRule d
  | .element => elementRule d
  | .markupExpression => markupExpressionRule

def Rule.isOperand : Rule → Bool
  | .expression | .expressions | .operand | .primary => true
  | _ => false

def grammar (d : Dialect) : Grammar Rule where
  root := .program
  rootName := "program"
  rules := rules d
  isOperand := Rule.isOperand
  isBlank := isBlank
  comment := comment
  htmlComment := htmlComment
  semicolonUnderstood := semicolonUnderstood
  stray := stray

end Restyle.Script
