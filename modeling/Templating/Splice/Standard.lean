import Templating.Splice

/-!
# The standard splices

* `apply` expands another template in its place. The children of the element,
  expanded, are what `content` stands for in that template.
* `bind` binds a tag to its children. Where the tag is used, they are expanded in
  the directory where they were bound, and the expanded children of the use are what
  `content` stands for in them.
* `ignore` drops its element.

Their results are not expanded again, since what `content` stands for has already
been expanded, where it was written.
-/

namespace Templating.Splice

open Markup (Node)

/-- The name that stands for the content of a use. -/
def contentName : String := "content"

/-- Expands `body` one level deeper in the directory `context`, while `content` stands for
the given nodes. -/
def expandBody (context : Path) (body content : List Node) : Script :=
  .setContext context <|
    .scope (.bind contentName (nodes content) <| .descend body .done) .done

/-- Records the doctype of a template if it has one. -/
def recordDoctype : Option String → Script → Script
  | none, next => next
  | some body, next => .addDoctype body next

/-- Expands the template that the attribute `template` names. -/
def apply : Splice := fun node =>
  .stop <|
    match node.attribute? "template" with
    | none => .done []
    | some name =>
      .expand node.children fun content =>
        .look fun view =>
          match resolve view.templates view.context name with
          | none => .done []
          | some (template, directory) =>
            recordDoctype template.document.doctype <|
              expandBody directory template.document.content content

/-- What a tag is bound to: it expands `body` in the directory `context`. -/
def boundTag (context : Path) (body : List Node) : Splice := fun use =>
  .stop <| .expand use.children fun content => expandBody context body content

/-- Binds the tag that the attribute `tag` names to the children. -/
def bind : Splice := fun node =>
  .stop <|
    match node.attribute? "tag" with
    | none => .done []
    | some tag =>
      .look fun view => .bind tag (boundTag view.context node.children) <| .done []

/-- Drops its element. -/
def ignore : Splice := fun _ => .done []

/-- The standard splices by name. -/
def standard : List (String × Splice) := [("apply", apply), ("bind", bind), ("ignore", ignore)]

/-- The splices whose behaviour is fixed: texts, nodes, the standard ones, and the tags
that `bind` binds. -/
inductive IsStandard : Splice → Prop where
  | text (value : String) : IsStandard (text value)
  | nodes (ns : List Node) : IsStandard (nodes ns)
  | apply : IsStandard apply
  | bind : IsStandard bind
  | ignore : IsStandard ignore
  | boundTag (context : Path) (body : List Node) : IsStandard (boundTag context body)

end Templating.Splice
