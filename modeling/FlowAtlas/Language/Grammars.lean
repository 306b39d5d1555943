import FlowAtlas.Grammar
import FlowAtlas.Language
import FlowAtlas.Language.Builtins

/-! The grammars of the languages. -/

namespace FlowAtlas

namespace Grammar

def python : Grammar where
  functionKinds := ["function_definition"]
  closureKinds := ["lambda"]
  bindingKinds := ["assignment"]
  bindingField := some "left"
  callKind := some "call"
  methodKind := some "attribute"
  methodField := some "attribute"
  builtins := Language.Builtins.python
  conditional :=
    { kind := some "if_statement"
      condition := some "condition"
      consequence := some "consequence"
      elifKind := some "elif_clause"
      elifCondition := some "condition"
      elifBody := some "consequence"
      elseKind := some "else_clause"
      elseBody := some "body" }
  loops :=
    { forKinds := ["for_statement"]
      whileKinds := ["while_statement"]
      body := some "body"
      condition := some "condition" }
  choice :=
    { kind := some "match_statement"
      subject := some "subject"
      body := some "body"
      armKinds := ["case_clause"]
      patternKind := some "case_pattern" }
  commentKind := some "comment"
  wrapperKinds := ["decorated_definition"]

def rust : Grammar where
  functionKinds := ["function_item"]
  closureKinds := ["closure_expression"]
  bindingKinds := ["let_declaration"]
  bindingField := some "pattern"
  callKind := some "call_expression"
  methodKind := some "field_expression"
  methodField := some "field"
  pathKind := some "scoped_identifier"
  pathField := some "name"
  builtins := Language.Builtins.rust
  conditional :=
    { kind := some "if_expression"
      condition := some "condition"
      consequence := some "consequence"
      alternative := some "alternative" }
  loops :=
    { forKinds := ["for_expression"]
      whileKinds := ["while_expression"]
      endlessKinds := ["loop_expression"]
      body := some "body"
      condition := some "condition" }
  choice :=
    { kind := some "match_expression"
      subject := some "value"
      body := some "body"
      armKinds := ["match_arm"]
      patternKind := some "match_pattern" }
  testKind := some "mod_item"
  testField := some "name"
  testNames := ["tests", "test"]
  commentKind := some "line_comment"
  attributeKinds := ["attribute_item"]

def typescript : Grammar where
  functionKinds :=
    ["function_declaration", "generator_function_declaration", "method_definition"]
  closureKinds := ["arrow_function", "function_expression"]
  bindingKinds := ["variable_declarator", "public_field_definition"]
  bindingField := some "name"
  callKind := some "call_expression"
  methodKind := some "member_expression"
  methodField := some "property"
  builtins := Language.Builtins.typescript
  conditional :=
    { kind := some "if_statement"
      condition := some "condition"
      consequence := some "consequence"
      alternative := some "alternative" }
  loops :=
    { forKinds := ["for_statement", "for_in_statement"]
      whileKinds := ["while_statement", "do_statement"]
      body := some "body"
      condition := some "condition" }
  choice :=
    { kind := some "switch_statement"
      subject := some "value"
      body := some "body"
      armKinds := ["switch_case", "switch_default"]
      patternField := some "value"
      defaultLabel := some "default" }
  commentKind := some "comment"
  wrapperKinds := ["export_statement"]

end Grammar

/-- The grammar of a language; TSX shares that of TypeScript. -/
def Language.grammar : Language → Grammar
  | .rust => .rust
  | .python => .python
  | .typescript => .typescript
  | .tsx => .typescript

end FlowAtlas
