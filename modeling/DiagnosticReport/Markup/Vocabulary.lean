/-!
# The vocabulary of a report document

The names of the elements and attributes that a report document uses. A name is sorted by what
its element may hold: nothing (`LeafTag`), a text (`TextTag`) or further elements (`GroupTag`).
-/

namespace DiagnosticReport

namespace Markup

/-- Elements that carry attributes only. -/
inductive LeafTag where
  | point
  | file
  | function
  | generator
  deriving DecidableEq

/-- Elements that carry a text. -/
inductive TextTag where
  | message
  | notes
  deriving DecidableEq

/-- Elements that carry further elements. -/
inductive GroupTag where
  | analysis
  | metadata
  | results
  | issue
  | failure
  | info
  | location
  | range
  | trace
  | state
  deriving DecidableEq

/-- Names of attributes. -/
inductive Key where
  | column
  | line
  | givenPath
  | name
  | version
  | failureId
  | infoId
  deriving DecidableEq

/-- The name of an element without content. -/
def LeafTag.label : LeafTag → String
  | .point => "point"
  | .file => "file"
  | .function => "function"
  | .generator => "generator"

/-- The name of an element with a text. -/
def TextTag.label : TextTag → String
  | .message => "message"
  | .notes => "notes"

/-- The name of an element with further elements. -/
def GroupTag.label : GroupTag → String
  | .analysis => "analysis"
  | .metadata => "metadata"
  | .results => "results"
  | .issue => "issue"
  | .failure => "failure"
  | .info => "info"
  | .location => "location"
  | .range => "range"
  | .trace => "trace"
  | .state => "state"

/-- The name of an attribute. -/
def Key.label : Key → String
  | .column => "column"
  | .line => "line"
  | .givenPath => "given-path"
  | .name => "name"
  | .version => "version"
  | .failureId => "failure-id"
  | .infoId => "info-id"

end Markup

end DiagnosticReport
