/-! The operators of calls. Each has a code on the wire and a name in the printed form; the codes are fixed
by the protocol. -/

namespace QueryTerms

/-- The operator of a call. -/
inductive Operator where
  | datum | makeArray | makeObj | var | js | uuid | http | error
  | implicitVar | db | table | get | getAll | eq | ne | lt
  | le | gt | ge | not | add | sub | mul | div
  | mod | floor | ceil | round | append | prepend | difference | setInsert
  | setIntersection | setUnion | setDifference | slice | skip | limit | offsetsOf | contains
  | getField | keys | values | object | hasFields | withFields | pluck | without
  | merge | betweenDeprecated | between | reduce | map | fold | filter | concatMap
  | orderBy | distinct | count | isEmpty | union | nth | bracket | innerJoin
  | outerJoin | eqJoin | zip | range | insertAt | deleteAt | changeAt | spliceAt
  | coerceTo | typeOf | update | delete | replace | insert | dbCreate | dbDrop
  | dbList | tableCreate | tableDrop | tableList | config | status | wait | reconfigure
  | rebalance | sync | grant | indexCreate | indexDrop | indexList | indexStatus | indexWait
  | indexRename | setWriteHook | getWriteHook | funcall | branch | or | and | forEach
  | func | asc | desc | info | matchText | upcase | downcase | sample
  | default | json | toJsonString | iso8601 | toIso8601 | epochTime | toEpochTime | now
  | inTimezone | during | date | timeOfDay | timezone | year | month | day
  | dayOfWeek | dayOfYear | hours | minutes | seconds | time | monday | tuesday
  | wednesday | thursday | friday | saturday | sunday | january | february | march
  | april | may | june | july | august | september | october | november
  | december | literal | group | sum | avg | min | max | split
  | ungroup | random | changes | args | binary | geojson | toGeojson | point
  | line | polygon | distance | intersects | includes | circle | getIntersecting | fill
  | getNearest | polygonSub | minval | maxval | bitAnd | bitOr | bitXor | bitNot
  | bitSal | bitSar
deriving DecidableEq, Repr

namespace Operator

/-- The code that stands for the operator on the wire. -/
def code : Operator → UInt64
  | .datum => 1
  | .makeArray => 2
  | .makeObj => 3
  | .var => 10
  | .js => 11
  | .uuid => 169
  | .http => 153
  | .error => 12
  | .implicitVar => 13
  | .db => 14
  | .table => 15
  | .get => 16
  | .getAll => 78
  | .eq => 17
  | .ne => 18
  | .lt => 19
  | .le => 20
  | .gt => 21
  | .ge => 22
  | .not => 23
  | .add => 24
  | .sub => 25
  | .mul => 26
  | .div => 27
  | .mod => 28
  | .floor => 183
  | .ceil => 184
  | .round => 185
  | .append => 29
  | .prepend => 80
  | .difference => 95
  | .setInsert => 88
  | .setIntersection => 89
  | .setUnion => 90
  | .setDifference => 91
  | .slice => 30
  | .skip => 70
  | .limit => 71
  | .offsetsOf => 87
  | .contains => 93
  | .getField => 31
  | .keys => 94
  | .values => 186
  | .object => 143
  | .hasFields => 32
  | .withFields => 96
  | .pluck => 33
  | .without => 34
  | .merge => 35
  | .betweenDeprecated => 36
  | .between => 182
  | .reduce => 37
  | .map => 38
  | .fold => 187
  | .filter => 39
  | .concatMap => 40
  | .orderBy => 41
  | .distinct => 42
  | .count => 43
  | .isEmpty => 86
  | .union => 44
  | .nth => 45
  | .bracket => 170
  | .innerJoin => 48
  | .outerJoin => 49
  | .eqJoin => 50
  | .zip => 72
  | .range => 173
  | .insertAt => 82
  | .deleteAt => 83
  | .changeAt => 84
  | .spliceAt => 85
  | .coerceTo => 51
  | .typeOf => 52
  | .update => 53
  | .delete => 54
  | .replace => 55
  | .insert => 56
  | .dbCreate => 57
  | .dbDrop => 58
  | .dbList => 59
  | .tableCreate => 60
  | .tableDrop => 61
  | .tableList => 62
  | .config => 174
  | .status => 175
  | .wait => 177
  | .reconfigure => 176
  | .rebalance => 179
  | .sync => 138
  | .grant => 188
  | .indexCreate => 75
  | .indexDrop => 76
  | .indexList => 77
  | .indexStatus => 139
  | .indexWait => 140
  | .indexRename => 156
  | .setWriteHook => 189
  | .getWriteHook => 190
  | .funcall => 64
  | .branch => 65
  | .or => 66
  | .and => 67
  | .forEach => 68
  | .func => 69
  | .asc => 73
  | .desc => 74
  | .info => 79
  | .matchText => 97
  | .upcase => 141
  | .downcase => 142
  | .sample => 81
  | .default => 92
  | .json => 98
  | .toJsonString => 172
  | .iso8601 => 99
  | .toIso8601 => 100
  | .epochTime => 101
  | .toEpochTime => 102
  | .now => 103
  | .inTimezone => 104
  | .during => 105
  | .date => 106
  | .timeOfDay => 126
  | .timezone => 127
  | .year => 128
  | .month => 129
  | .day => 130
  | .dayOfWeek => 131
  | .dayOfYear => 132
  | .hours => 133
  | .minutes => 134
  | .seconds => 135
  | .time => 136
  | .monday => 107
  | .tuesday => 108
  | .wednesday => 109
  | .thursday => 110
  | .friday => 111
  | .saturday => 112
  | .sunday => 113
  | .january => 114
  | .february => 115
  | .march => 116
  | .april => 117
  | .may => 118
  | .june => 119
  | .july => 120
  | .august => 121
  | .september => 122
  | .october => 123
  | .november => 124
  | .december => 125
  | .literal => 137
  | .group => 144
  | .sum => 145
  | .avg => 146
  | .min => 147
  | .max => 148
  | .split => 149
  | .ungroup => 150
  | .random => 151
  | .changes => 152
  | .args => 154
  | .binary => 155
  | .geojson => 157
  | .toGeojson => 158
  | .point => 159
  | .line => 160
  | .polygon => 161
  | .distance => 162
  | .intersects => 163
  | .includes => 164
  | .circle => 165
  | .getIntersecting => 166
  | .fill => 167
  | .getNearest => 168
  | .polygonSub => 171
  | .minval => 180
  | .maxval => 181
  | .bitAnd => 191
  | .bitOr => 192
  | .bitXor => 193
  | .bitNot => 194
  | .bitSal => 195
  | .bitSar => 196

/-- The name under which the operator is printed. -/
def name : Operator → String
  | .datum => "datum"
  | .makeArray => "make_array"
  | .makeObj => "make_obj"
  | .var => "var"
  | .js => "js"
  | .uuid => "uuid"
  | .http => "http"
  | .error => "error"
  | .implicitVar => "implicit_var"
  | .db => "db"
  | .table => "table"
  | .get => "get"
  | .getAll => "get_all"
  | .eq => "eq"
  | .ne => "ne"
  | .lt => "lt"
  | .le => "le"
  | .gt => "gt"
  | .ge => "ge"
  | .not => "not"
  | .add => "add"
  | .sub => "sub"
  | .mul => "mul"
  | .div => "div"
  | .mod => "mod"
  | .floor => "floor"
  | .ceil => "ceil"
  | .round => "round"
  | .append => "append"
  | .prepend => "prepend"
  | .difference => "difference"
  | .setInsert => "set_insert"
  | .setIntersection => "set_intersection"
  | .setUnion => "set_union"
  | .setDifference => "set_difference"
  | .slice => "slice"
  | .skip => "skip"
  | .limit => "limit"
  | .offsetsOf => "offsets_of"
  | .contains => "contains"
  | .getField => "get_field"
  | .keys => "keys"
  | .values => "values"
  | .object => "object"
  | .hasFields => "has_fields"
  | .withFields => "with_fields"
  | .pluck => "pluck"
  | .without => "without"
  | .merge => "merge"
  | .betweenDeprecated => "between_deprecated"
  | .between => "between"
  | .reduce => "reduce"
  | .map => "map"
  | .fold => "fold"
  | .filter => "filter"
  | .concatMap => "concat_map"
  | .orderBy => "order_by"
  | .distinct => "distinct"
  | .count => "count"
  | .isEmpty => "is_empty"
  | .union => "union"
  | .nth => "nth"
  | .bracket => "bracket"
  | .innerJoin => "inner_join"
  | .outerJoin => "outer_join"
  | .eqJoin => "eq_join"
  | .zip => "zip"
  | .range => "range"
  | .insertAt => "insert_at"
  | .deleteAt => "delete_at"
  | .changeAt => "change_at"
  | .spliceAt => "splice_at"
  | .coerceTo => "coerce_to"
  | .typeOf => "type_of"
  | .update => "update"
  | .delete => "delete"
  | .replace => "replace"
  | .insert => "insert"
  | .dbCreate => "db_create"
  | .dbDrop => "db_drop"
  | .dbList => "db_list"
  | .tableCreate => "table_create"
  | .tableDrop => "table_drop"
  | .tableList => "table_list"
  | .config => "config"
  | .status => "status"
  | .wait => "wait"
  | .reconfigure => "reconfigure"
  | .rebalance => "rebalance"
  | .sync => "sync"
  | .grant => "grant"
  | .indexCreate => "index_create"
  | .indexDrop => "index_drop"
  | .indexList => "index_list"
  | .indexStatus => "index_status"
  | .indexWait => "index_wait"
  | .indexRename => "index_rename"
  | .setWriteHook => "set_write_hook"
  | .getWriteHook => "get_write_hook"
  | .funcall => "funcall"
  | .branch => "branch"
  | .or => "or"
  | .and => "and"
  | .forEach => "for_each"
  | .func => "func"
  | .asc => "asc"
  | .desc => "desc"
  | .info => "info"
  | .matchText => "match"
  | .upcase => "upcase"
  | .downcase => "downcase"
  | .sample => "sample"
  | .default => "default"
  | .json => "json"
  | .toJsonString => "to_json_string"
  | .iso8601 => "iso8601"
  | .toIso8601 => "to_iso8601"
  | .epochTime => "epoch_time"
  | .toEpochTime => "to_epoch_time"
  | .now => "now"
  | .inTimezone => "in_timezone"
  | .during => "during"
  | .date => "date"
  | .timeOfDay => "time_of_day"
  | .timezone => "timezone"
  | .year => "year"
  | .month => "month"
  | .day => "day"
  | .dayOfWeek => "day_of_week"
  | .dayOfYear => "day_of_year"
  | .hours => "hours"
  | .minutes => "minutes"
  | .seconds => "seconds"
  | .time => "time"
  | .monday => "monday"
  | .tuesday => "tuesday"
  | .wednesday => "wednesday"
  | .thursday => "thursday"
  | .friday => "friday"
  | .saturday => "saturday"
  | .sunday => "sunday"
  | .january => "january"
  | .february => "february"
  | .march => "march"
  | .april => "april"
  | .may => "may"
  | .june => "june"
  | .july => "july"
  | .august => "august"
  | .september => "september"
  | .october => "october"
  | .november => "november"
  | .december => "december"
  | .literal => "literal"
  | .group => "group"
  | .sum => "sum"
  | .avg => "avg"
  | .min => "min"
  | .max => "max"
  | .split => "split"
  | .ungroup => "ungroup"
  | .random => "random"
  | .changes => "changes"
  | .args => "args"
  | .binary => "binary"
  | .geojson => "geojson"
  | .toGeojson => "to_geojson"
  | .point => "point"
  | .line => "line"
  | .polygon => "polygon"
  | .distance => "distance"
  | .intersects => "intersects"
  | .includes => "includes"
  | .circle => "circle"
  | .getIntersecting => "get_intersecting"
  | .fill => "fill"
  | .getNearest => "get_nearest"
  | .polygonSub => "polygon_sub"
  | .minval => "minval"
  | .maxval => "maxval"
  | .bitAnd => "bit_and"
  | .bitOr => "bit_or"
  | .bitXor => "bit_xor"
  | .bitNot => "bit_not"
  | .bitSal => "bit_sal"
  | .bitSar => "bit_sar"

/-- Every operator, in declaration order. -/
def all : List Operator :=
  [
   .datum, .makeArray, .makeObj, .var, .js, .uuid, .http, .error, .implicitVar, .db, .table, .get, .getAll,
   .eq, .ne, .lt, .le, .gt, .ge, .not, .add, .sub, .mul, .div, .mod, .floor, .ceil, .round, .append,
   .prepend, .difference, .setInsert, .setIntersection, .setUnion, .setDifference, .slice, .skip, .limit,
   .offsetsOf, .contains, .getField, .keys, .values, .object, .hasFields, .withFields, .pluck, .without,
   .merge, .betweenDeprecated, .between, .reduce, .map, .fold, .filter, .concatMap, .orderBy, .distinct,
   .count, .isEmpty, .union, .nth, .bracket, .innerJoin, .outerJoin, .eqJoin, .zip, .range, .insertAt,
   .deleteAt, .changeAt, .spliceAt, .coerceTo, .typeOf, .update, .delete, .replace, .insert, .dbCreate,
   .dbDrop, .dbList, .tableCreate, .tableDrop, .tableList, .config, .status, .wait, .reconfigure,
   .rebalance, .sync, .grant, .indexCreate, .indexDrop, .indexList, .indexStatus, .indexWait, .indexRename,
   .setWriteHook, .getWriteHook, .funcall, .branch, .or, .and, .forEach, .func, .asc, .desc, .info,
   .matchText, .upcase, .downcase, .sample, .default, .json, .toJsonString, .iso8601, .toIso8601,
   .epochTime, .toEpochTime, .now, .inTimezone, .during, .date, .timeOfDay, .timezone, .year, .month, .day,
   .dayOfWeek, .dayOfYear, .hours, .minutes, .seconds, .time, .monday, .tuesday, .wednesday, .thursday,
   .friday, .saturday, .sunday, .january, .february, .march, .april, .may, .june, .july, .august,
   .september, .october, .november, .december, .literal, .group, .sum, .avg, .min, .max, .split, .ungroup,
   .random, .changes, .args, .binary, .geojson, .toGeojson, .point, .line, .polygon, .distance,
   .intersects, .includes, .circle, .getIntersecting, .fill, .getNearest, .polygonSub, .minval, .maxval,
   .bitAnd, .bitOr, .bitXor, .bitNot, .bitSal, .bitSar
  ]

def ofCode? (code : UInt64) : Option Operator :=
  all.find? fun op => op.code == code

def ofName? (name : String) : Option Operator :=
  all.find? fun op => op.name == name

/-- The place of the operator in declaration order. -/
def index (op : Operator) : Nat :=
  all.idxOf op

end Operator

end QueryTerms
