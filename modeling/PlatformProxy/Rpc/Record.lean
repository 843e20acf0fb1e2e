import PlatformProxy.Json.Shaped
import PlatformProxy.Query.Leaderboard
import PlatformProxy.Query.Workshop
import PlatformProxy.Tags

/-!
# Results as callers see them

The results of the methods, as records with the names that are used on the wire.

## Main definitions

* `Rpc.EntryRecord`, `Rpc.BoardRecord` — rows of a leaderboard and the size of the board
* `Rpc.LevelRecord` — a Workshop item
-/

namespace PlatformProxy

namespace Rpc

/-- A row of a leaderboard with the name of its user. -/
structure EntryRecord where
  user : UserId
  rank : Int32
  score : Int32
  playerName : String
  deriving DecidableEq, Repr

open Json in
instance : Shaped EntryRecord where
  shape := .record "LeaderboardEntryRecord" (.cons "steam_id" true (.integer .nat64)
    (.cons "global_rank" true (.integer .int32) (.cons "score" true (.integer .int32)
      (.cons "player_name" true .text .nil))))
  ofValue := fun (user, rank, score, playerName, ()) => ⟨user, rank, score, playerName⟩
  toValue := fun r => (r.user, r.rank, r.score, r.playerName, ())

namespace EntryRecord

def ofRanked (r : Query.NamedEntry) : EntryRecord :=
  ⟨r.entry.user, r.entry.rank, r.entry.score, r.playerName⟩

end EntryRecord

/-- Some rows of a leaderboard and the number of all its rows. -/
structure BoardRecord where
  entries : List EntryRecord
  total : Int32
  deriving DecidableEq, Repr

open Json in
instance : Shaped BoardRecord where
  shape := .record "LeaderboardResponse" (.cons "entries" true (Shaped.shape (List EntryRecord))
    (.cons "total_entries" true (.integer .int32) .nil))
  ofValue := fun (entries, total, ()) => ⟨(Shaped.ofValue entries : List EntryRecord), total⟩
  toValue := fun r => (Shaped.toValue r.entries, r.total, ())

namespace BoardRecord

def ofResult (r : Query.Standings) : BoardRecord :=
  ⟨r.entries.map EntryRecord.ofRanked, r.total⟩

end BoardRecord

/-- A Workshop item with its tags taken apart. -/
structure LevelRecord where
  publishedFile : UInt64
  owner : UserId
  fileName : String
  title : String
  description : String
  created : UInt32
  updated : UInt32
  fileSize : Int32
  votesUp : UInt32
  votesDown : UInt32
  score : Floating .single
  tags : List String
  authorName : String
  previewUrl : String
  deriving DecidableEq, Repr

open Json in
instance : Shaped LevelRecord where
  shape := .record "WorkshopLevelRecord" (.cons "published_file_id" true (.integer .nat64)
    (.cons "steam_id_owner" true (.integer .nat64) (.cons "file_name" true .text
      (.cons "title" true .text (.cons "description" true .text
        (.cons "time_created" true (.integer .nat32) (.cons "time_updated" true (.integer .nat32)
          (.cons "file_size" true (.integer .int32) (.cons "votes_up" true (.integer .nat32)
            (.cons "votes_down" true (.integer .nat32) (.cons "score" true .single
              (.cons "tags" true (.list .text) (.cons "author_name" true .text
                (.cons "preview_url" true .text .nil))))))))))))))
  ofValue := fun (publishedFile, owner, fileName, title, description, created, updated, fileSize,
      votesUp, votesDown, score, tags, authorName, previewUrl, ()) =>
    { publishedFile, owner, fileName, title, description, created, updated, fileSize, votesUp,
      votesDown, score, tags, authorName, previewUrl }
  toValue := fun r =>
    (r.publishedFile, r.owner, r.fileName, r.title, r.description, r.created, r.updated,
      r.fileSize, r.votesUp, r.votesDown, r.score, r.tags, r.authorName, r.previewUrl, ())

namespace LevelRecord

def ofEntry (e : Query.Level) : LevelRecord :=
  { publishedFile := e.item.publishedFile
    owner := e.item.owner
    fileName := e.item.fileName
    title := e.item.title
    description := e.item.description
    created := e.item.created
    updated := e.item.updated
    fileSize := e.item.fileSize
    votesUp := e.item.votesUp
    votesDown := e.item.votesDown
    score := e.item.score
    tags := Tags.split e.item.tags
    authorName := e.authorName
    previewUrl := e.previewUrl }

end LevelRecord

end Rpc

end PlatformProxy
