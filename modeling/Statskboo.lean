import Statskboo.Lib.BatchDrain
import Statskboo.Lib.Chunks
import Statskboo.Lib.Gate
import Statskboo.Lib.KeepFirst
import Statskboo.Lib.Memo
import Statskboo.Lib.KeyedTable
import Statskboo.Lib.Refresh
import Statskboo.Lib.Run
import Statskboo.Lib.Selection
import Statskboo.Lib.Transaction
import Statskboo.Text
import Statskboo.Numbers
import Statskboo.Canon
import Statskboo.Similarity
import Statskboo.Models
import Statskboo.Ingest.Sheet
import Statskboo.Ingest.ParseScores
import Statskboo.Ingest.ScoreLayout
import Statskboo.Ingest.IgrfCells
import Statskboo.Ingest.SheetRows
import Statskboo.Ingest.LineupBlocks
import Statskboo.Ingest.ScoreEdits
import Statskboo.Ingest.Matcher
import Statskboo.Ingest.MatcherSpec
import Statskboo.Ingest.Orientation
import Statskboo.Db.Schema
import Statskboo.Ingest.Resolve
import Statskboo.Ingest.ResolveFailure
import Statskboo.Ingest.StatsbookIndex
import Statskboo.Ingest.DataCache
import Statskboo.Ingest.IndexSync
import Statskboo.Ingest.DriveRequests
import Statskboo.Ingest.DriveTree
import Statskboo.Ingest.StatsbookParse
import Statskboo.Ingest.StoreCalls
import Statskboo.Ingest.Wftda
import Statskboo.Ingest.Stages
import Statskboo.Ingest.Visibility
import Statskboo.Ingest.Repass
import Statskboo.Ingest.Passes
import Statskboo.Ingest.Library
import Statskboo.Ingest.Loops
import Statskboo.Web.Cache
import Statskboo.Web.Transparent
import Statskboo.Ingest.Drain
import Statskboo.Web.GamePage
import Statskboo.Web.GamePages
import Statskboo.Ingest.StoredGames
import Statskboo.Ingest.Summary
import Statskboo.Ingest.GameDate
import Statskboo.Ingest.ParseStatsbook
import Statskboo.Ingest.ExactScores
import Statskboo.Ingest.Roster
import Statskboo.Ingest.PenaltySheet
import Statskboo.Ingest.DateForms
import Statskboo.Ingest.Exchange
import Statskboo.Ingest.SideCache
import Statskboo.Ingest.ExactNames
import Statskboo.Ingest.CorruptCache
import Statskboo.Ingest.CacheWrites
import Statskboo.Ingest.DrainEnds
import Statskboo.Ingest.ResultsScan
import Statskboo.Ingest.HtmlEntities
import Statskboo.Ingest.TeamListing
import Statskboo.Ingest.TeamSlugs
import Statskboo.Rekey.Cache
import Statskboo.Rekey.Contents
import Statskboo.Rekey.DryRun
import Statskboo.Rekey.Rerun
import Statskboo.Web.Leagues
import Statskboo.Web.TeamPage
import Statskboo.Web.TeamRecords
import Statskboo.Web.PlayerLinks
import Statskboo.Web.PlayerPage
import Statskboo.Lib.Like
import Statskboo.Lib.TopRows
import Statskboo.Web.Outcomes
import Statskboo.Lib.BijectiveBase
import Statskboo.Ingest.GamesSync
import Statskboo.Ingest.WftdaRequests
import Statskboo.Ingest.IgrfMap
import Statskboo.Ingest.WholeStatsbook
import Statskboo.Ingest.Mirror
import Statskboo.Ingest.JamCounts
import Statskboo.Web.AcceptEncoding
import Statskboo.Web.CacheAccounting
import Statskboo.Ingest.DriveToken
import Statskboo.Ingest.StarPass
import Statskboo.Ingest.GamesScan
import Statskboo.CaptainMarkers
import Statskboo.Web.SearchPlayers
import Statskboo.Trigrams
import Statskboo.Web.IndexPage
import Statskboo.Web.SearchPage
import Statskboo.Rekey.Mapping
import Statskboo.Rekey.Command
